import GreaseLog.TwKhash

/- The tables of the logger. tw_hash has no specialization for a pointer to one of their
   keys, so every key hashes to 0: the buckets are filled one after the other, a search
   goes over them from the first, and a loop over a table that nothing is removed from
   sees the keys in the order in which they were first put there. -/
namespace GreaseLog
open OpenAddressing

/-- template<class T> struct tw_hash, for a T without a specialization of its own. -/
def tw_hash {Key : Type} (_ : Key) : BitVec 64 := 0

def kh_int64_hash_func (key : BitVec 64) : BitVec 32 :=
  (key >>> 33 ^^^ key ^^^ key <<< 11).setWidth 32

def hash_func {Key : Type} (key : Key) : BitVec 32 := kh_int64_hash_func (tw_hash key)

theorem hash_func_zero {Key : Type} (key : Key) : hash_func key = 0 := by
  rw [hash_func, tw_hash]
  decide

section Packed
variable {Key Data : Type} {L : List (Key × Option Data)} {n : Nat}

theorem probe_hash_func (sized : Sized n) (key : Key) {j : Nat} (bound : j < n) :
    probe hash_func n key j = j := by
  have one : ac_inc (0 : BitVec 32) (n - 1) = 1 := by
    have big := sized.pos
    have odd : ((0 : BitVec 32) >>> 3 ^^^ (0 : BitVec 32) <<< 3 ||| 1).toNat = 1 := by decide
    rw [ac_inc, sized.and_mask, odd]
    exact Nat.mod_eq_of_lt (by omega)
  rw [probe, hash_func_zero, one]
  simpa using Nat.mod_eq_of_lt bound

theorem packed_first (sized : Sized n) (room : L.length < n) {key : Key} {j : Nat} (within : j < n)
    (vacant : (packed L (probe hash_func n key j)).entry = none)
    (before : ∀ j' < j, packed L (probe hash_func n key j') ≠ .empty) : j = L.length := by
  rw [probe_hash_func sized key within, packed_entry, List.getElem?_eq_none_iff] at vacant
  by_contra other
  have more : L.length < j := by omega
  have taken := before L.length more
  rw [probe_hash_func sized key room] at taken
  exact taken (packed_empty.mpr (Nat.le_refl _))

def movedFirst (k : Nat) (L : List (Key × Option Data)) (i : Nat) : Slot Key (Option Data) :=
  if i < k then .deleted else packed L i

theorem movedFirst_take {k : Nat} :
    Function.update (movedFirst k L) k .deleted = movedFirst (k + 1) L := by
  funext i
  by_cases same : i = k
  · subst same
    simp [movedFirst]
  · rw [Function.update_of_ne same]
    unfold movedFirst
    by_cases less : i < k
    · rw [if_pos less, if_pos (by omega)]
    · rw [if_neg less, if_neg (by omega)]

variable {h : KhA Key Data} {new_flags : Flags} {m : Nat}

/-- A round moves the next entry to the next bucket, and nothing is in its way. -/
theorem rehashBucket_packed (sized : Sized m) (nodup : (L.map Prod.fst).Nodup) (fits : L.length < m)
    {j : Nat} (bound : j < h.n_buckets)
    (rehash : Rehash hash_func m L [] h new_flags (movedFirst (min j L.length) L) (packed (L.take j))) :
    ∃ h' new_flags', khRehashBucket hash_func (m - 1) (h, new_flags) j = some (h', new_flags') ∧
      Rehash hash_func m L [] h' new_flags' (movedFirst (min (j + 1) L.length) L)
        (packed (L.take (j + 1))) ∧ Frame h h' := by
  by_cases there : j < L.length
  · have now : min j L.length = j := by omega
    have next : min (j + 1) L.length = j + 1 := by omega
    rw [now] at rehash
    rw [next]
    have is : movedFirst j L j = .live L[j].1 L[j].2 := by
      rw [movedFirst, if_neg (Nat.lt_irrefl j)]
      exact packed_live.mpr (List.getElem?_eq_getElem there)
    obtain ⟨flags, step, taken⟩ := rehash_take rehash bound is
    rw [movedFirst_take] at taken
    obtain ⟨x, i, flags', placing⟩ := exists_placing sized nodup fits taken
    have room : (L.take j).length < m := by
      rw [List.length_take]
      omega
    have vacant : (packed (L.take j) (probe hash_func m L[j].1 i)).entry = none := by
      rw [placing.place, placing.free]
      rfl
    have last := packed_first sized room placing.within vacant placing.before
    have at_j : x = j := by
      rw [← placing.place, probe_hash_func sized _ placing.within, last, List.length_take]
      omega
    subst at_j
    have unused : x < h.n_buckets → (movedFirst (x + 1) L x).entry = none := by
      intro _
      rw [movedFirst, if_pos (Nat.lt_succ_self x)]
      rfl
    obtain ⟨run, done⟩ := placing.settles sized nodup taken unused h.n_buckets
    have grown : Function.update (packed (L.take x)) x (.live L[x].1 L[x].2) =
        packed (L.take (x + 1)) := by
      have length : (L.take x).length = x := by
        rw [List.length_take]
        omega
      have appended := packed_append (L := L.take x) L[x].1 L[x].2
      rw [length] at appended
      rw [appended, List.take_add_one, List.getElem?_eq_getElem there]
      rfl
    rw [grown] at done
    exact ⟨_, _, step.trans run, done, ⟨rfl, rfl, List.length_set, List.length_set⟩⟩
  · have now : min j L.length = L.length := by omega
    have next : min (j + 1) L.length = L.length := by omega
    rw [now] at rehash
    rw [next]
    have vacant : (movedFirst L.length L j).entry = none := by
      rw [movedFirst, if_neg there, packed_entry]
      exact List.getElem?_eq_none (by omega)
    have whole : L.take (j + 1) = L.take j := by
      rw [List.take_of_length_le (by omega), List.take_of_length_le (by omega)]
    rw [whole]
    exact ⟨h, new_flags, rehash_skip rehash bound vacant, rehash, .refl h⟩

theorem rehashLoop_packed (sized : Sized m) (nodup : (L.map Prod.fst).Nodup) (fits : L.length < m)
    {count j : Nat} (rest : j + count = h.n_buckets)
    (rehash : Rehash hash_func m L [] h new_flags (movedFirst (min j L.length) L) (packed (L.take j))) :
    ∃ h' new_flags',
      (List.range' j count).foldlM (khRehashBucket hash_func (m - 1)) (h, new_flags) =
        some (h', new_flags') ∧
      Rehash hash_func m L [] h' new_flags' (movedFirst (min (j + count) L.length) L)
        (packed (L.take (j + count))) ∧ Frame h h' := by
  induction count generalizing h new_flags j with
  | zero => exact ⟨h, new_flags, rfl, rehash, .refl h⟩
  | succ count ih =>
    obtain ⟨h', nf, run, next, frame⟩ := rehashBucket_packed sized nodup fits (by omega) rehash
    have rest' : j + 1 + count = h'.n_buckets := by
      rw [frame.n_buckets]
      omega
    obtain ⟨h'', nf', run', done, frame'⟩ := ih rest' next
    refine ⟨h'', nf', ?_, ?_, frame.trans frame'⟩
    · rw [List.range'_succ, List.foldlM_cons, run]
      exact run'
    · rwa [show j + (count + 1) = j + 1 + count by omega]

theorem resize_packed (stores : Stores hash_func h (packed L)) (room : L.length ≤ h.n_buckets)
    {asked : Nat} (sized : Sized (rounded asked)) (enough : h.size < ac_upper (rounded asked)) :
    ∃ h', kh_resize_A hash_func h asked = some h' ∧ Stores hash_func h' (packed L) ∧
      h'.n_buckets = rounded asked ∧ h'.size = h.size ∧ h'.n_occupied = h.size := by
  have whole := entries_packed room
  have nodup := stores.table.nodup
  have fits := stores.entries_lt sized enough
  obtain ⟨begins, buckets, _⟩ := expand_rehash stores sized
  rw [keys, whole] at nodup
  rw [whole] at fits begins
  have none_moved : movedFirst (min 0 L.length) L = packed L := by
    funext i
    rw [Nat.zero_min, movedFirst, if_neg (Nat.not_lt_zero i)]
  have none_there : packed (L.take 0) = fun _ => (.empty : Slot Key (Option Data)) := by
    funext i
    exact packed_empty.mpr (Nat.zero_le i)
  rw [← none_moved, ← none_there] at begins
  obtain ⟨moved, nf, run, rehash, frame⟩ :=
    rehashLoop_packed sized nodup fits (Nat.zero_add _) begins
  have all : min (0 + (khExpand h (rounded asked)).n_buckets) L.length = L.length := by
    rw [buckets]
    omega
  have taken : L.take (0 + (khExpand h (rounded asked)).n_buckets) = L := by
    rw [buckets]
    exact List.take_of_length_le (by omega)
  rw [all, taken, ← whole] at rehash
  rw [buckets, ← List.range_eq_range'] at run
  have gone : ∀ i < h.n_buckets, ∀ key val,
      movedFirst (entries h.n_buckets (packed L)).length (entries h.n_buckets (packed L)) i ≠
        .live key val := by
    rw [whole]
    intro i _ key val is
    unfold movedFirst at is
    split at is
    · cases is
    · rename_i after
      rw [packed_live, List.getElem?_eq_none (by omega)] at is
      cases is
  obtain ⟨h', result, stores', size⟩ := resize_of_loop stores sized enough run rehash frame gone
  rw [whole] at stores'
  exact ⟨h', result, stores', size.1, size.2.1, size.2.2.1⟩

theorem put_packed [DecidableEq Key] (stores : Stores hash_func h (packed L))
    (room : L.length ≤ h.n_buckets) (few : h.size < 2 ^ 30) {key : Key}
    (absent : key ∉ L.map Prod.fst) :
    ∃ h' r val, kh_put_A hash_func h key = some (h', L.length, r) ∧ L.length < h'.n_buckets ∧
      Stores hash_func h' (packed (L ++ [(key, val)])) := by
  obtain ⟨g, roomy, holds, sized, vacant, kept⟩ : ∃ g, khRoom hash_func h = some g ∧
      Stores hash_func g (packed L) ∧ Sized g.n_buckets ∧ g.n_occupied < g.upper_bound ∧
      L.length ≤ g.n_buckets := by
    rcases room_cases stores few with ⟨run, sized, vacant⟩ | ⟨asked, run, sized, enough⟩
    · exact ⟨h, run, stores, sized, vacant, room⟩
    · obtain ⟨g, result, holds, buckets, _, occupied'⟩ := resize_packed stores room sized enough
      have big := sized.pos
      have upper := holds.upper_bound
      have fits := stores.entries_lt sized enough
      rw [entries_packed room] at fits
      rw [if_neg (by omega), buckets] at upper
      refine ⟨g, run.trans result, holds, ?_, by omega, by omega⟩
      rwa [buckets]
  have free := holds.room sized
  have count := length_le_occupied g.n_buckets (packed L)
  rw [entries_packed kept] at count
  have fresh : key ∉ keys g.n_buckets (packed L) := by
    rwa [keys, entries_packed kept]
  obtain ⟨h', x, j, r, val, run, _, stores', buckets, at_x, within, before, none⟩ :=
    put_written roomy holds sized vacant fresh
  subst at_x
  have last := packed_first sized (by omega) within none before
  rw [probe_hash_func sized key within, last] at run stores'
  rw [packed_append] at stores'
  exact ⟨h', r, val, run, by omega, stores'⟩

end Packed

section Ordered
variable {Key Data : Type} [DecidableEq Key]

def placeOf (L : List (Key × Data)) (key : Key) : Option Nat := L.findIdx? fun e => e.1 == key

/-- What a call does to the entries in the order of their first registration. -/
def HashCall.onList (L : List (Key × Data)) : HashCall Key Data → List (Key × Data)
  | .addReplace key d | .addReplaceOld key d | .addReplaceNew key d =>
    match placeOf L key with
    | some i => L.set i (key, d)
    | none => L ++ [(key, d)]
  | .addNoreplace key d | .addNoreplaceNew key d | .findOrNew key d =>
    match placeOf L key with
    | some _ => L
    | none => L ++ [(key, d)]
  | .removeAll => []
  | _ => L

def HashCall.keeps : HashCall Key Data → Bool
  | .remove _ | .removeFill _ => false
  | _ => true

def HashCall.ListFits (L : List (Key × Data)) (c : HashCall Key Data) : Prop :=
  c.keeps = true ∧ (c.onList L).length ≤ 2 ^ 30

instance (L : List (Key × Data)) (c : HashCall Key Data) : Decidable (c.ListFits L) :=
  inferInstanceAs (Decidable (_ ∧ _))

structure HoldsList (h : KhA Key Data) (L : List (Key × Data)) : Prop where
  stores : Stores hash_func h (packed (L.map fun e => (e.1, some e.2)))
  room : L.length ≤ h.n_buckets

variable {h : KhA Key Data} {L : List (Key × Data)} {key : Key}

omit [DecidableEq Key] in
theorem HoldsList.entries (lists : HoldsList h L) :
    OpenAddressing.entries h.n_buckets (packed (L.map fun e => (e.1, some e.2))) =
      L.map fun e => (e.1, some e.2) := by
  apply entries_packed
  rw [List.length_map]
  exact lists.room

omit [DecidableEq Key] in
theorem HoldsList.keys (lists : HoldsList h L) :
    OpenAddressing.keys h.n_buckets (packed (L.map fun e => (e.1, some e.2))) = L.map Prod.fst := by
  rw [OpenAddressing.keys, lists.entries, List.map_map]
  rfl

omit [DecidableEq Key] in
theorem HoldsList.nodup (lists : HoldsList h L) : (L.map Prod.fst).Nodup := by
  rw [← lists.keys]
  exact lists.stores.table.nodup

omit [DecidableEq Key] in
theorem HoldsList.size (lists : HoldsList h L) : h.size = L.length := by
  rw [lists.stores.size, lists.entries, List.length_map]

theorem placeOf_some (nodup : (L.map Prod.fst).Nodup) {i : Nat} {d : Data} (at_i : L[i]? = some (key, d)) :
    placeOf L key = some i := by
  obtain ⟨bound, is⟩ := List.getElem?_eq_some_iff.mp at_i
  rw [placeOf, List.findIdx?_eq_some_iff_getElem]
  refine ⟨bound, by simp [is], ?_⟩
  intro j less same
  have apart := List.pairwise_iff_getElem.mp (List.pairwise_map.mp nodup) j i (by omega) bound less
  rw [is] at apart
  exact apart (by simpa using same)

theorem placeOf_none (absent : key ∉ L.map Prod.fst) : placeOf L key = none := by
  rw [placeOf, List.findIdx?_eq_none_iff]
  intro e member
  simp only [beq_eq_false_iff_ne]
  rintro rfl
  exact absent (List.mem_map_of_mem member)

theorem lists_get (lists : HoldsList h L) (key : Key) :
    (∃ i d, kh_get_A hash_func h key = some i ∧ i < h.n_buckets ∧ kh_value h i = some d ∧
      L[i]? = some (key, d) ∧ placeOf L key = some i) ∨
    kh_get_A hash_func h key = some h.n_buckets ∧ key ∉ L.map Prod.fst ∧ placeOf L key = none := by
  rcases get_spec lists.stores key with ⟨i, val, run, bound, is⟩ | ⟨run, absent⟩
  · left
    have shown := lists.stores.shown i bound
    rw [is] at shown
    rw [packed_live, List.getElem?_map, Option.map_eq_some_iff] at is
    obtain ⟨⟨k, d⟩, at_i, eq⟩ := is
    cases eq
    refine ⟨i, d, run, bound, ?_, at_i, placeOf_some lists.nodup at_i⟩
    rw [kh_value, shown.2.2]
    rfl
  · right
    rw [lists.keys] at absent
    exact ⟨run, absent, placeOf_none absent⟩

omit [DecidableEq Key] in
theorem lists_set (lists : HoldsList h L) {i : Nat} {old : Data} (at_i : L[i]? = some (key, old)) (d : Data) :
    ∃ h', kh_set_value h i d = some h' ∧ HoldsList h' (L.set i (key, d)) := by
  obtain ⟨bound, _⟩ := List.getElem?_eq_some_iff.mp at_i
  have room := lists.room
  have in_vals : i < h.vals.length := by
    rw [lists.stores.vals_length]
    omega
  have is : packed (L.map fun e => (e.1, some e.2)) i = .live key (some old) := by
    rw [packed_live, List.getElem?_map, at_i]
    rfl
  have stores := lists.stores.set_value (by omega) is (some d)
  rw [packed_set (by rwa [List.length_map])] at stores
  refine ⟨_, if_pos in_vals, ?_, ?_⟩
  · rwa [List.map_set]
  · rwa [List.length_set]

variable {t : TwKHash32 Key Data}

theorem lists_putNew (lists : HoldsList t.KHASHMAP L) (absent : key ∉ L.map Prod.fst) {d : Data}
    (fits : (L ++ [(key, d)]).length ≤ 2 ^ 30) :
    ∃ t', t.putNew hash_func key d = some t' ∧ HoldsList t'.KHASHMAP (L ++ [(key, d)]) := by
  have size := lists.size
  rw [List.length_append, List.length_singleton] at fits
  have fresh : key ∉ (L.map fun e => (e.1, some e.2)).map Prod.fst := by
    rw [List.map_map]
    exact absent
  obtain ⟨h', r, val, run, bound, stores⟩ :=
    put_packed lists.stores (by rw [List.length_map]; exact lists.room) (by omega) fresh
  rw [List.length_map] at run bound
  have in_vals : L.length < h'.vals.length := by rwa [stores.vals_length]
  have last : L.length < (L.map (fun e => (e.1, some e.2)) ++ [(key, val)]).length := by simp
  have is : packed (L.map (fun e => (e.1, some e.2)) ++ [(key, val)]) L.length = .live key val := by
    rw [packed_live]
    simp
  have valued := stores.set_value bound is (some d)
  rw [packed_set last] at valued
  refine ⟨⟨{ h' with vals := h'.vals.set L.length (some d) }, t.iterators_out⟩, ?_, ?_, ?_⟩
  · simp only [TwKHash32.putNew, run, kh_set_value, if_pos in_vals, Option.bind_eq_bind,
      Option.bind_some]
    rfl
  · simpa using valued
  · rwa [List.length_append, List.length_singleton]

omit [DecidableEq Key] in
theorem lists_valued (lists : HoldsList t.KHASHMAP L) (key : Key) (val : Option Data)
    (member : (key, val) ∈ OpenAddressing.entries t.KHASHMAP.n_buckets
      (packed (L.map fun e => (e.1, some e.2)))) : val.isSome := by
  rw [lists.entries, List.mem_map] at member
  obtain ⟨e, _, eq⟩ := member
  cases eq
  rfl

theorem lists_addOver (lists : HoldsList t.KHASHMAP L) {key : Key} {d : Data}
    (fits : (HashCall.addReplace key d).ListFits L) :
    ∃ t' old, t.addOver hash_func key d = some (t', old) ∧
      HoldsList t'.KHASHMAP ((HashCall.addReplace key d).onList L) := by
  obtain ⟨_, room⟩ := fits
  rw [HashCall.onList] at room ⊢
  rcases lists_get lists key with ⟨i, old, run, bound, value, at_i, place⟩ | ⟨run, absent, place⟩
  · rw [place]
    have set : ∀ k, kh_get_A hash_func t.KHASHMAP key = some k → k ≠ t.KHASHMAP.n_buckets →
        ∃ h', kh_set_value t.KHASHMAP k d = some h' ∧ HoldsList h' (L.set i (key, d)) := by
      intro k at_k _
      obtain rfl : i = k := Option.some.inj (run.symm.trans at_k)
      exact lists_set lists at_i d
    obtain ⟨t', done⟩ := (Search.found run (Nat.ne_of_lt bound) value).addOver
      (P := fun h => HoldsList h (L.set i (key, d))) set nofun
    exact ⟨t', some old, done⟩
  · rw [place] at room ⊢
    obtain ⟨t', done⟩ := (Search.missing run).addOver
      (P := fun h => HoldsList h (L ++ [(key, d)]))
      (fun k at_k inside => absurd (Option.some.inj (at_k.symm.trans run)) inside)
      fun _ => lists_putNew lists absent room
    exact ⟨t', none, done⟩

theorem lists_addUnder (lists : HoldsList t.KHASHMAP L) {key : Key} {d : Data}
    (fits : (HashCall.addNoreplace key d).ListFits L) :
    ∃ t' k, ∃ old : Option Data, t.addUnder hash_func key d = some (t', k) ∧
      HoldsList t'.KHASHMAP ((HashCall.addNoreplace key d).onList L) ∧
      k.map (kh_value t'.KHASHMAP) = old.map some := by
  obtain ⟨_, room⟩ := fits
  rw [HashCall.onList] at room ⊢
  rcases lists_get lists key with ⟨i, old, run, bound, value, at_i, place⟩ | ⟨run, absent, place⟩
  · rw [place]
    obtain ⟨t', k, done⟩ := (Search.found run (Nat.ne_of_lt bound) value).addUnder
      (P := fun h => HoldsList h L) (fun _ => lists) nofun (d := d)
    exact ⟨t', k, some old, done⟩
  · rw [place] at room ⊢
    obtain ⟨t', k, done⟩ := (Search.missing run).addUnder
      (P := fun h => HoldsList h (L ++ [(key, d)])) nofun fun _ => lists_putNew lists absent room
    exact ⟨t', k, none, done⟩

theorem call_lists (lists : HoldsList t.KHASHMAP L) {c : HashCall Key Data} (fits : c.ListFits L) :
    ∃ t', (t.call hash_func c).map Prod.fst = some t' ∧ HoldsList t'.KHASHMAP (c.onList L) := by
  cases c with
  | addReplace key d =>
    obtain ⟨t', old, run, lists'⟩ := lists_addOver lists fits
    exact ⟨t', by rw [(call_over run).1]; rfl, lists'⟩
  | addReplaceOld key d =>
    obtain ⟨t', old, run, lists'⟩ := lists_addOver lists fits
    exact ⟨t', by rw [(call_over run).2.1]; rfl, lists'⟩
  | addReplaceNew key d =>
    obtain ⟨t', old, run, lists'⟩ := lists_addOver lists fits
    exact ⟨t', by rw [(call_over run).2.2]; rfl, lists'⟩
  | addNoreplace key d =>
    obtain ⟨t', k, old, run, lists', value⟩ := lists_addUnder lists fits
    exact ⟨t', by rw [(call_under run value).1]; rfl, lists'⟩
  | addNoreplaceNew key d =>
    obtain ⟨t', k, old, run, lists', value⟩ := lists_addUnder lists fits
    exact ⟨t', by rw [(call_under run value).2.1]; rfl, lists'⟩
  | findOrNew key d =>
    obtain ⟨t', k, old, run, lists', value⟩ := lists_addUnder lists fits
    exact ⟨t', by rw [(call_under run value).2.2]; rfl, lists'⟩
  | find key =>
    refine ⟨t, ?_, lists⟩
    rcases lists_get lists key with ⟨i, old, run, bound, value, _⟩ | ⟨run, _⟩
    · rw [TwKHash32.call, (Search.found run (Nat.ne_of_lt bound) value).find]
      rfl
    · rw [TwKHash32.call, (Search.missing run).find]
      rfl
  | remove key => cases fits.1
  | removeFill key => cases fits.1
  | removeAll =>
    obtain ⟨h', done, stores, _⟩ := clear_spec lists.stores
    have deletes : (List.range t.KHASHMAP.n_buckets).forM (TwKHash32.deleteAt t.KHASHMAP) = some () :=
      stores_deletes lists.stores (lists_valued lists)
    refine ⟨⟨h', t.iterators_out⟩, ?_, stores, Nat.zero_le _⟩
    simp [TwKHash32.call, TwKHash32.removeAll, deletes, done]
  | size => exact ⟨t, rfl, lists⟩
  | gotoStart =>
    obtain ⟨k, run, _⟩ :=
      skip_spec lists.stores (t.KHASHMAP.n_buckets + 1) (Nat.zero_le _) (by omega)
    refine ⟨⟨t.KHASHMAP, t.iterators_out + 1⟩, ?_, lists⟩
    simp [TwKHash32.call, TwKHash32.gotoStart, run]
  | releaseIter =>
    refine ⟨t.releaseIter, rfl, ?_⟩
    rwa [releaseIter_table]

theorem runs_list {cs : List (HashCall Key Data)} (lists : HoldsList t.KHASHMAP L)
    (fits : Runs.Checked HashCall.ListFits HashCall.onList L cs) :
    ∃ t' answers, t.runs hash_func cs = some (t', answers) ∧
      HoldsList t'.KHASHMAP (cs.foldl HashCall.onList L) := by
  induction cs generalizing t L with
  | nil => exact ⟨t, [], rfl, lists⟩
  | cons c cs ih =>
    obtain ⟨first, others⟩ := fits
    obtain ⟨t', stepped, lists'⟩ := call_lists lists first
    obtain ⟨⟨_, answer⟩, run, rfl⟩ := Option.map_eq_some_iff.mp stepped
    obtain ⟨t'', answers, run', lists''⟩ := ih lists' others
    refine ⟨t'', answer :: answers, ?_, lists''⟩
    simp only [TwKHash32.runs, run, run', Option.bind_eq_bind, Option.bind_some]
    rfl

omit [DecidableEq Key] in
theorem init_lists {items : Nat} (int : items < 2 ^ 31) :
    ∃ t : TwKHash32 Key Data, TwKHash32.init hash_func items = some t ∧ HoldsList t.KHASHMAP [] := by
  have empty : Stores hash_func (kh_init_A : KhA Key Data) (packed []) := by
    have none : packed ([] : List (Key × Option Data)) = fun _ => .empty := rfl
    rw [none]
    exact init_stores hash_func
  refine init_holds (P := fun h => HoldsList h []) hash_func ⟨empty, Nat.zero_le _⟩ ?_ int
  intro asked sized enough
  obtain ⟨h', run, stores, _⟩ := resize_packed empty (Nat.zero_le _) sized enough
  exact ⟨h', run, stores, Nat.zero_le _⟩

/-- A loop over a table of the logger sees what has been put there in the order in which
    it was put there first, and a search for a key takes as many steps as its place says. -/
theorem visited_in_order {items : Nat} (int : items < 2 ^ 31) {cs : List (HashCall Key Data)}
    (fits : Runs.Checked HashCall.ListFits HashCall.onList [] cs) :
    ∃ t t' answers, TwKHash32.init hash_func items = some t ∧ t.runs hash_func cs = some (t', answers) ∧
      t'.visited = some (cs.foldl HashCall.onList []) ∧
      ∀ key, kh_get_A hash_func t'.KHASHMAP key =
        some ((placeOf (cs.foldl HashCall.onList []) key).getD t'.KHASHMAP.n_buckets) := by
  obtain ⟨t, made, empty⟩ := @init_lists Key Data items int
  obtain ⟨t', answers, run, lists⟩ := runs_list empty fits
  refine ⟨t, t', answers, made, run, ?_, ?_⟩
  · obtain ⟨l, seen, is⟩ := stores_visited lists.stores (lists_valued lists)
    rw [lists.entries] at is
    have same : l = cs.foldl HashCall.onList [] := by
      apply List.map_injective_iff.mpr ?_ is
      rintro ⟨k, d⟩ ⟨k', d'⟩ eq
      cases eq
      rfl
    rw [seen, same]
  · intro key
    rcases lists_get lists key with ⟨i, d, found, _, _, _, place⟩ | ⟨found, _, place⟩
    · rw [found, place]
      rfl
    · rw [found, place]
      rfl

theorem visited_in_order_again :
    ∃ t t' answers, TwKHash32.init hash_func 0 = some t ∧
      t.runs hash_func [.addReplace 9 1, .addReplace 4 2, .addNoreplace 9 3, .addReplace 7 4,
        .addReplace 9 5] = some (t', answers) ∧
      t'.visited = some ([.addReplace 9 1, .addReplace 4 2, .addNoreplace 9 3, .addReplace 7 4,
        .addReplace 9 5].foldl HashCall.onList []) ∧
      ∀ key : Nat, kh_get_A hash_func t'.KHASHMAP key =
        some ((placeOf ([.addReplace 9 1, .addReplace 4 2, .addNoreplace 9 3, .addReplace 7 4,
          .addReplace 9 5].foldl HashCall.onList ([] : List (Nat × Nat))) key).getD
            t'.KHASHMAP.n_buckets) :=
  visited_in_order (by decide) (by decide)

end Ordered

end GreaseLog
