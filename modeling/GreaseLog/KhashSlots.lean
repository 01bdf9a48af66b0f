import Mathlib.Data.Nat.Prime.Basic
import GreaseLog.Khash

/- What the flag bits, keys and values of a hash table say of each bucket, and what
   the searches along a key's buckets find. -/
namespace GreaseLog
open OpenAddressing

def Bits (flag : Flags) (i : Nat) (empty deleted : Bool) : Prop :=
  ∃ word, flag[i >>> 4]? = some word ∧
    word.getLsbD (acShift i + 1) = empty ∧ word.getLsbD (acShift i) = deleted

theorem acShift_eq (i : Nat) : acShift i = 2 * (i % 16) := by
  have low : i &&& 0xf = i % 16 := Nat.and_two_pow_sub_one_eq_mod i 4
  rw [acShift, low, Nat.shiftLeft_eq]
  omega

theorem and_bit (x : BitVec 32) {b : Nat} (small : b < 32) :
    (x &&& BitVec.twoPow 32 b != 0) = x.getLsbD b := by
  rw [BitVec.and_twoPow]
  cases is : x.getLsbD b with
  | true =>
    have one : (BitVec.twoPow 32 b).getLsbD b = true := by simp [small]
    rw [if_pos rfl, bne_iff_ne]
    intro zero
    rw [zero] at one
    simp at one
  | false => rfl

theorem and_both (x : BitVec 32) : (x &&& 3 != 0) = (x.getLsbD 1 || x.getLsbD 0) := by
  rw [← and_bit x (by decide : 1 < 32), ← and_bit x (by decide : 0 < 32),
    show (3 : BitVec 32) = BitVec.twoPow 32 1 ||| BitVec.twoPow 32 0 from rfl,
    BitVec.and_or_distrib_left, Bool.eq_iff_iff]
  simp only [bne_iff_ne, Bool.or_eq_true, ne_eq, BitVec.ofNat_eq_ofNat, BitVec.or_eq_zero_iff,
    not_and_or]

section Reading
variable {flag : Flags} {i : Nat} {empty deleted : Bool}

theorem isempty_bits (bits : Bits flag i empty deleted) : ac_isempty flag i = some empty := by
  obtain ⟨word, at_i, first, second⟩ := bits
  rw [ac_isempty, acFlag, at_i, Option.map_some]
  rw [show (2 : BitVec 32) = BitVec.twoPow 32 1 from rfl, and_bit _ (by decide),
    BitVec.getLsbD_ushiftRight, first]

theorem isdel_bits (bits : Bits flag i empty deleted) : ac_isdel flag i = some deleted := by
  obtain ⟨word, at_i, first, second⟩ := bits
  rw [ac_isdel, acFlag, at_i, Option.map_some]
  rw [show (1 : BitVec 32) = BitVec.twoPow 32 0 from rfl, and_bit _ (by decide),
    BitVec.getLsbD_ushiftRight, Nat.add_zero, second]

theorem iseither_bits (bits : Bits flag i empty deleted) :
    ac_iseither flag i = some (empty || deleted) := by
  obtain ⟨word, at_i, first, second⟩ := bits
  rw [ac_iseither, acFlag, at_i, Option.map_some, and_both, BitVec.getLsbD_ushiftRight,
    BitVec.getLsbD_ushiftRight, first, Nat.add_zero, second]

structure Wrote (flag : Flags) (i : Nat) (empty deleted : Bool) (flag' : Flags) : Prop where
  here : Bits flag' i empty deleted
  elsewhere : ∀ j, j ≠ i → ∀ a b, Bits flag j a b → Bits flag' j a b
  length : flag'.length = flag.length

theorem acWrite_wrote {empty' deleted' : Bool} {change : BitVec 32 → BitVec 32}
    (bits : Bits flag i empty deleted)
    (here : ∀ word : BitVec 32, word.getLsbD (acShift i + 1) = empty →
      word.getLsbD (acShift i) = deleted →
        (change word).getLsbD (acShift i + 1) = empty' ∧ (change word).getLsbD (acShift i) = deleted')
    (other : ∀ (word : BitVec 32) (k : Nat), k < 32 → k ≠ acShift i → k ≠ acShift i + 1 →
      (change word).getLsbD k = word.getLsbD k) :
    ∃ flag', acWrite flag i change = some flag' ∧ Wrote flag i empty' deleted' flag' := by
  obtain ⟨word, at_i, first, second⟩ := bits
  obtain ⟨bound, is⟩ := List.getElem?_eq_some_iff.mp at_i
  refine ⟨flag.set (i >>> 4) (change word), by rw [acWrite, at_i, Option.map_some], ?_⟩
  constructor
  · obtain ⟨first', second'⟩ := here word first second
    exact ⟨change word, List.getElem?_set_self bound, first', second'⟩
  · intro j different a b ⟨word', at_j, firstJ, secondJ⟩
    by_cases same : j >>> 4 = i >>> 4
    · rw [same, at_i] at at_j
      cases at_j
      have shifts := acShift_eq j
      have shifts' := acShift_eq i
      have apart : j % 16 ≠ i % 16 := by
        rw [Nat.shiftRight_eq_div_pow, Nat.shiftRight_eq_div_pow] at same
        omega
      refine ⟨change word, by rw [same]; exact List.getElem?_set_self bound, ?_, ?_⟩
      · rw [other word _ (by omega) (by omega) (by omega), firstJ]
      · rw [other word _ (by omega) (by omega) (by omega), secondJ]
    · exact ⟨word', by rw [List.getElem?_set_ne (Ne.symm same), at_j], firstJ, secondJ⟩
  · exact List.length_set ..

theorem shifted (b s : Nat) (small : b + s < 32) (k : Nat) :
    (BitVec.twoPow 32 b <<< s).getLsbD k = decide (k = b + s) := by
  rw [BitVec.twoPow_eq, ← BitVec.shiftLeft_add, ← BitVec.twoPow_eq, BitVec.getLsbD_twoPow]
  by_cases same : k = b + s
  · simp [same, small]
  · simp [same, Ne.symm same]

theorem getLsbD_ones {s : Nat} (high : s + 1 < 32) (k : Nat) :
    (1#32 <<< s).getLsbD k = decide (k = s) := by
  have bit := shifted 0 s (by omega) k
  rwa [Nat.zero_add] at bit

theorem getLsbD_twos {s : Nat} (high : s + 1 < 32) (k : Nat) :
    (2#32 <<< s).getLsbD k = decide (k = s + 1) := by
  have bit := shifted 1 s (by omega) k
  rwa [Nat.add_comm 1 s] at bit

theorem getLsbD_threes {s : Nat} (high : s + 1 < 32) (k : Nat) :
    (3#32 <<< s).getLsbD k = (decide (k = s + 1) || decide (k = s)) := by
  rw [show (3#32 : BitVec 32) = 2#32 ||| 1#32 from rfl, BitVec.shiftLeft_or_distrib,
    BitVec.getLsbD_or, getLsbD_twos high, getLsbD_ones high]

theorem set_isempty_false_wrote (bits : Bits flag i empty deleted) :
    ∃ flag', ac_set_isempty_false flag i = some flag' ∧ Wrote flag i false deleted flag' := by
  have high : acShift i + 1 < 32 := by
    have shift := acShift_eq i
    omega
  apply acWrite_wrote bits
  · intro word _ second
    rw [BitVec.getLsbD_and, BitVec.getLsbD_not, getLsbD_twos high, BitVec.getLsbD_and,
      BitVec.getLsbD_not, getLsbD_twos high, second]
    simp [Nat.lt_of_succ_lt high]
  · intro word k small first second
    rw [BitVec.getLsbD_and, BitVec.getLsbD_not, getLsbD_twos high]
    simp [small, second]

theorem set_isboth_false_wrote (bits : Bits flag i empty deleted) :
    ∃ flag', ac_set_isboth_false flag i = some flag' ∧ Wrote flag i false false flag' := by
  have high : acShift i + 1 < 32 := by
    have shift := acShift_eq i
    omega
  apply acWrite_wrote bits
  · intro word _ _
    rw [BitVec.getLsbD_and, BitVec.getLsbD_not, getLsbD_threes high, BitVec.getLsbD_and,
      BitVec.getLsbD_not, getLsbD_threes high]
    simp
  · intro word k small first second
    rw [BitVec.getLsbD_and, BitVec.getLsbD_not, getLsbD_threes high]
    simp [small, first, second]

theorem set_isdel_true_wrote (bits : Bits flag i empty deleted) :
    ∃ flag', ac_set_isdel_true flag i = some flag' ∧ Wrote flag i empty true flag' := by
  have high : acShift i + 1 < 32 := by
    have shift := acShift_eq i
    omega
  apply acWrite_wrote bits
  · intro word first _
    rw [BitVec.getLsbD_or, getLsbD_ones high, BitVec.getLsbD_or, getLsbD_ones high, first]
    simp
  · intro word k small first second
    rw [BitVec.getLsbD_or, getLsbD_ones high]
    simp [first]

end Reading

def Sized (n : Nat) : Prop := ∃ m, 2 ≤ m ∧ m ≤ 31 ∧ n = 2 ^ m

theorem Sized.pos {n : Nat} (sized : Sized n) : 4 ≤ n := by
  obtain ⟨m, low, _, rfl⟩ := sized
  exact Nat.pow_le_pow_right (by decide : 0 < 2) low

theorem Sized.and_mask {n : Nat} (sized : Sized n) (x : Nat) : x &&& (n - 1) = x % n := by
  obtain ⟨m, _, _, rfl⟩ := sized
  exact Nat.and_two_pow_sub_one_eq_mod x m

theorem upper_lt {n : Nat} (big : 4 ≤ n) : ac_upper n < n := by
  unfold ac_upper
  omega

theorem word_within {n : Nat} (sized : Sized n) {i : Nat} (bound : i < n) :
    i >>> 4 < ac_fsize n := by
  obtain ⟨m, low, _, rfl⟩ := sized
  rw [ac_fsize, Nat.shiftRight_eq_div_pow, Nat.shiftRight_eq_div_pow]
  split
  · omega
  · have big : 4 ≤ m := by
      by_contra less
      have most : 2 ^ m ≤ 2 ^ 3 := Nat.pow_le_pow_right (by decide) (by omega)
      omega
    obtain ⟨k, rfl⟩ := Nat.exists_eq_add_of_le big
    rw [Nat.pow_add] at bound ⊢
    omega

theorem fresh_bits {n : Nat} (sized : Sized n) {i : Nat} (bound : i < n) :
    Bits (ac_fresh n) i true false := by
  have pattern : ∀ t < 16, (0xaaaaaaaa : BitVec 32).getLsbD (2 * t + 1) = true ∧
      (0xaaaaaaaa : BitVec 32).getLsbD (2 * t) = false := by decide
  refine ⟨0xaaaaaaaa, List.getElem?_replicate_of_lt (word_within sized bound), ?_⟩
  rw [acShift_eq]
  exact pattern (i % 16) (Nat.mod_lt i (by decide))

section Probes
variable {Key : Type} (hash : Key → BitVec 32)

/-- The buckets of a key in a table of n buckets, in the order of its searches. -/
def probe (n : Nat) (key : Key) (j : Nat) : Nat :=
  ((hash key).toNat + j * ac_inc (hash key) (n - 1)) % n

variable {n : Nat} (sized : Sized n) (key : Key)
include sized

theorem probe_start : (hash key).toNat &&& (n - 1) = probe hash n key 0 := by
  rw [sized.and_mask, probe, Nat.zero_mul, Nat.add_zero]

theorem probe_next (j : Nat) :
    (probe hash n key j + ac_inc (hash key) (n - 1)) &&& (n - 1) = probe hash n key (j + 1) := by
  rw [sized.and_mask, probe, probe, Nat.mod_add_mod, Nat.add_assoc, Nat.succ_mul]

theorem inc_coprime : Nat.Coprime n (ac_inc (hash key) (n - 1)) := by
  have odd : ac_inc (hash key) (n - 1) % 2 = 1 := by
    rw [ac_inc, sized.and_mask]
    obtain ⟨m, low, _, rfl⟩ := sized
    rw [Nat.mod_mod_of_dvd _ (dvd_pow_self 2 (by omega)), BitVec.toNat_or]
    exact Nat.or_mod_two_eq_one.mpr (Or.inr rfl)
  obtain ⟨m, _, _, power⟩ := sized
  have prime : Nat.Coprime 2 (ac_inc (hash key) (n - 1)) :=
    (Nat.coprime_two_left).mpr (Nat.odd_iff.mpr odd)
  rw [power] at prime ⊢
  exact prime.pow_left m

theorem probe_covers : Covers n (probe hash n) where
  inside := fun k j => Nat.mod_lt _ (Nat.lt_of_lt_of_le (by decide) sized.pos)
  comes := fun k i bound => stride_comes (inc_coprime hash sized k) i bound

/-- A search is back at its first bucket only after a whole round. -/
theorem probe_round {j : Nat} (more : 0 < j) (less : j < n) :
    probe hash n key j ≠ probe hash n key 0 := by
  intro back
  have begins : (hash key).toNat % n < n := Nat.mod_lt _ (Nat.zero_lt_of_lt less)
  rw [probe, probe, Nat.zero_mul, Nat.add_zero, ← Nat.mod_add_mod] at back
  have round := stride_returns (inc_coprime hash sized key) begins back
  exact absurd (Nat.le_of_dvd more round) (by omega)

end Probes

section Shown
variable {Key Data : Type}

/-- What the three arrays say of a bucket; a live one may not have its value yet. -/
def Shown (flags : Flags) (keys : Cells Key) (vals : Cells Data) (i : Nat) :
    Slot Key (Option Data) → Prop
  | .empty => Bits flags i true false
  | .deleted => Bits flags i false true
  | .live key val => Bits flags i false false ∧ keys[i]? = some (some key) ∧ vals[i]? = some val

variable {flags : Flags} {keys : Cells Key} {vals : Cells Data} {i : Nat}
  {s : Slot Key (Option Data)}

theorem shown_isempty (shown : Shown flags keys vals i s) : ac_isempty flags i = some (!s.taken) := by
  cases s with
  | empty => exact isempty_bits shown
  | deleted => exact isempty_bits shown
  | live key val => exact isempty_bits shown.1

theorem shown_isdel (shown : Shown flags keys vals i s) :
    ac_isdel flags i = some (s.taken && s.entry.isNone) := by
  cases s with
  | empty => exact isdel_bits shown
  | deleted => exact isdel_bits shown
  | live key val => exact isdel_bits shown.1

theorem shown_iseither (shown : Shown flags keys vals i s) :
    ac_iseither flags i = some s.entry.isNone := by
  cases s with
  | empty => exact iseither_bits shown
  | deleted => exact iseither_bits shown
  | live key val => exact iseither_bits shown.1

theorem shown_flags (shown : Shown flags keys vals i s) {j : Nat} (other : i ≠ j) {flags' : Flags}
    {empty deleted : Bool} (wrote : Wrote flags j empty deleted flags') :
    Shown flags' keys vals i s := by
  cases s with
  | empty => exact wrote.elsewhere i other _ _ shown
  | deleted => exact wrote.elsewhere i other _ _ shown
  | live k v => exact ⟨wrote.elsewhere i other _ _ shown.1, shown.2⟩

theorem shown_key (shown : Shown flags keys vals i s) {x : Nat} (unused : i = x → s.entry = none)
    (key : Option Key) : Shown flags (keys.set x key) vals i s := by
  cases s with
  | empty => exact shown
  | deleted => exact shown
  | live k v =>
    have other : x ≠ i := by
      intro same
      cases unused same.symm
    obtain ⟨bits, at_key, at_val⟩ := shown
    exact ⟨bits, by rwa [List.getElem?_set_ne other], at_val⟩

theorem shown_val (shown : Shown flags keys vals i s) {x : Nat} (unused : i = x → s.entry = none)
    (val : Option Data) : Shown flags keys (vals.set x val) i s := by
  cases s with
  | empty => exact shown
  | deleted => exact shown
  | live k v =>
    have other : x ≠ i := by
      intro same
      cases unused same.symm
    obtain ⟨bits, at_key, at_val⟩ := shown
    exact ⟨bits, at_key, by rwa [List.getElem?_set_ne other]⟩

theorem shown_elsewhere (shown : Shown flags keys vals i s) {j : Nat} (other : i ≠ j)
    {flags' : Flags} {empty deleted : Bool} (wrote : Wrote flags j empty deleted flags')
    (key : Option Key) (val : Option Data) :
    Shown flags' (keys.set j key) (vals.set j val) i s :=
  shown_val (shown_key (shown_flags shown other wrote) (fun same => absurd same other) key)
    (fun same => absurd same other) val

end Shown

section Get
variable {Key Data : Type} [DecidableEq Key] {hash : Key → BitVec 32}

/-- The arrays hold a table of these slots, with room for a search to end in. -/
structure Stores (hash : Key → BitVec 32) (h : KhA Key Data) (T : Nat → Slot Key (Option Data)) :
    Prop where
  sized : h.n_buckets = 0 ∨ Sized h.n_buckets
  flags_length : h.flags.length = if h.n_buckets = 0 then 0 else ac_fsize h.n_buckets
  keys_length : h.keys.length = h.n_buckets
  vals_length : h.vals.length = h.n_buckets
  shown : ∀ i < h.n_buckets, Shown h.flags h.keys h.vals i (T i)
  table : Table h.n_buckets (probe hash h.n_buckets) T
  size : h.size = (entries h.n_buckets T).length
  n_occupied : h.n_occupied = occupied h.n_buckets T
  upper_bound : h.upper_bound = if h.n_buckets = 0 then 0 else ac_upper h.n_buckets
  bounded : h.n_occupied ≤ h.upper_bound

variable {h : KhA Key Data} {T : Nat → Slot Key (Option Data)}

theorem stops_shown {i : Nat} (shown : Shown h.flags h.keys h.vals i (T i)) (key : Key) :
    (Stops (T i) key → khStops h key i = some true) ∧
      (¬ Stops (T i) key → khStops h key i = some false) := by
  have isempty := shown_isempty shown
  have isdel := shown_isdel shown
  cases is : T i with
  | empty =>
    rw [is] at isempty
    constructor
    · intro _
      simp [khStops, isempty, Slot.taken]
    · intro not
      exact absurd (Or.inl rfl) not
  | deleted =>
    rw [is] at isempty isdel
    constructor
    · intro stops
      rcases stops with no | ⟨v, no⟩
      · cases no
      · cases no
    · intro _
      simp [khStops, isempty, isdel, Slot.taken, Slot.entry]
  | live k v =>
    rw [is] at isempty isdel shown
    have answer : khStops h key i = some (decide (k = key)) := by
      simp [khStops, isempty, isdel, Slot.taken, Slot.entry, shown.2.1]
    constructor
    · intro stops
      rcases stops with no | ⟨v', eq⟩
      · cases no
      · cases eq
        rw [answer, decide_eq_true rfl]
    · intro not
      rw [answer, decide_eq_false]
      intro same
      exact not (Or.inr ⟨v, same ▸ rfl⟩)

variable (stores : Stores hash h T) (some_buckets : Sized h.n_buckets)
include stores some_buckets

omit [DecidableEq Key] in
theorem Stores.room : occupied h.n_buckets T < h.n_buckets := by
  have big := some_buckets.pos
  have least := stores.bounded
  rw [stores.upper_bound, if_neg (by omega), stores.n_occupied] at least
  exact least.trans_lt (upper_lt big)

theorem getLoop_stops (key : Key) {j : Nat} (within : j < h.n_buckets)
    (stops : Stops (T (probe hash h.n_buckets key j)) key)
    (passed : ∀ j' < j, ¬ Stops (T (probe hash h.n_buckets key j')) key)
    {left fuel : Nat} (enough : left < fuel) {k : Nat} (rest : k + left = j) :
    khGetLoop h key (h.n_buckets - 1) (ac_inc (hash key) (h.n_buckets - 1))
        (probe hash h.n_buckets key 0) fuel (probe hash h.n_buckets key k) =
      some (if (T (probe hash h.n_buckets key j)).entry.isNone then h.n_buckets
        else probe hash h.n_buckets key j) := by
  have inside := (probe_covers hash some_buckets).inside key
  induction left generalizing fuel k with
  | zero =>
    obtain rfl : k = j := rest
    obtain ⟨fuel, rfl⟩ := Nat.exists_eq_add_of_lt enough
    have shown := stores.shown _ (inside k)
    have here := (stops_shown shown key).1 stops
    simp [khGetLoop, here, shown_iseither shown]
  | succ left ih =>
    cases fuel with
    | zero => cases enough
    | succ fuel =>
      have shown := stores.shown _ (inside k)
      have here := (stops_shown shown key).2 (passed k (by omega))
      have not_back := probe_round hash some_buckets key (Nat.succ_pos k) (by omega)
      have next := ih (Nat.lt_of_succ_lt_succ enough) (k := k + 1) (by omega)
      simp only [khGetLoop, here, Option.bind_eq_bind, Option.bind_some, Bool.false_eq_true,
        if_false, probe_next hash some_buckets]
      rw [if_neg not_back]
      exact next

omit some_buckets in
theorem get_spec (key : Key) :
    (∃ i v, kh_get_A hash h key = some i ∧ i < h.n_buckets ∧ T i = .live key v) ∨
      kh_get_A hash h key = some h.n_buckets ∧ key ∉ OpenAddressing.keys h.n_buckets T := by
  rcases stores.sized with none | sized
  · right
    have nothing : entries h.n_buckets T = [] := entries_nil (by simp [none])
    exact ⟨by simp [kh_get_A, none], by simp [OpenAddressing.keys, nothing]⟩
  · have covers := probe_covers hash sized
    obtain ⟨j, within, stops, passed⟩ := exists_stop covers (stores.room sized) key
    have run : kh_get_A hash h key = some (if (T (probe hash h.n_buckets key j)).entry.isNone then
        h.n_buckets else probe hash h.n_buckets key j) := by
      have big := sized.pos
      have loop := getLoop_stops stores sized key within stops passed within (k := 0) (Nat.zero_add j)
      simp only [kh_get_A, probe_start hash sized]
      rw [if_pos (by omega)]
      exact loop
    rcases stops with free | ⟨v, is⟩
    · right
      rw [free] at run
      exact ⟨run, search_missing stores.table passed free⟩
    · left
      rw [is] at run
      exact ⟨_, v, run, covers.inside key j, is⟩

end Get

end GreaseLog
