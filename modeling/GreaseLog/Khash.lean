import GreaseLog.Lib.OpenAddressing

/- The hash table of khash.h as tw_khash.h writes it out for TW_KHash_32: two flag
   bits a bucket packed in words, tombstones, and a rehash within the arrays it
   already has. A read or write outside an array, a read of a key that was never
   constructed and a loop that does not end come out as none. -/
namespace GreaseLog
open OpenAddressing

/-- Two bits a bucket: 2 says empty, 1 says deleted. -/
abbrev Flags := List (BitVec 32)

def acShift (i : Nat) : Nat := (i &&& 0xf) <<< 1

def acFlag (flag : Flags) (i : Nat) (bits : BitVec 32) : Option Bool :=
  flag[i >>> 4]?.map fun (word : BitVec 32) => word >>> acShift i &&& bits != 0

def ac_isempty (flag : Flags) (i : Nat) : Option Bool := acFlag flag i 2
def ac_isdel (flag : Flags) (i : Nat) : Option Bool := acFlag flag i 1
def ac_iseither (flag : Flags) (i : Nat) : Option Bool := acFlag flag i 3

def acWrite (flag : Flags) (i : Nat) (change : BitVec 32 → BitVec 32) : Option Flags :=
  flag[i >>> 4]?.map fun word => flag.set (i >>> 4) (change word)

def ac_set_isempty_false (flag : Flags) (i : Nat) : Option Flags :=
  acWrite flag i fun word => word &&& ~~~(2#32 <<< acShift i)
def ac_set_isboth_false (flag : Flags) (i : Nat) : Option Flags :=
  acWrite flag i fun word => word &&& ~~~(3#32 <<< acShift i)
def ac_set_isdel_true (flag : Flags) (i : Nat) : Option Flags :=
  acWrite flag i fun word => word ||| 1#32 <<< acShift i

def ac_inc (k : BitVec 32) (m : Nat) : Nat := (k >>> 3 ^^^ k <<< 3 ||| 1).toNat &&& m

def ac_fsize (m : Nat) : Nat := if m < 16 then 1 else m >>> 4

/-- What memset leaves in words filled with the byte 0xaa. -/
def ac_fresh (m : Nat) : Flags := List.replicate (ac_fsize m) 0xaaaaaaaa

/-- (khint_t)(m * __ac_HASH_UPPER + 0.5): for a power of two the double is exact to well
    below the hundredth that separates the sum from a whole number. -/
def ac_upper (m : Nat) : Nat := (77 * m + 50) / 100

def kroundup32 (x : BitVec 32) : BitVec 32 :=
  let x := x - 1
  let x := x ||| x >>> 1
  let x := x ||| x >>> 2
  let x := x ||| x >>> 4
  let x := x ||| x >>> 8
  let x := x ||| x >>> 16
  x + 1

/-- An array of keys or of values, none where nothing has been constructed. -/
abbrev Cells (α : Type) := List (Option α)

def realloc {α : Type} (cells : Cells α) (n : Nat) : Cells α :=
  cells.take n ++ List.replicate (n - cells.length) none

structure KhA (Key Data : Type) where
  n_buckets : Nat
  size : Nat
  n_occupied : Nat
  upper_bound : Nat
  flags : Flags
  keys : Cells Key
  vals : Cells Data
  deriving DecidableEq

section Operations
variable {Key Data : Type} [DecidableEq Key] (hash : Key → BitVec 32)

def kh_init_A : KhA Key Data := ⟨0, 0, 0, 0, [], [], []⟩

def kh_clear_A (h : KhA Key Data) : Option (KhA Key Data) :=
  if h.flags = [] then some h
  else if h.flags.length < ac_fsize h.n_buckets then none
  else some { h with
    flags := ac_fresh h.n_buckets ++ h.flags.drop (ac_fsize h.n_buckets), size := 0, n_occupied := 0 }

def khStops (h : KhA Key Data) (key : Key) (i : Nat) : Option Bool := do
  if ← ac_isempty h.flags i then return true
  if ← ac_isdel h.flags i then return false
  let k ← h.keys[i]?.join
  return decide (k = key)

def khGetLoop (h : KhA Key Data) (key : Key) (mask inc last : Nat) : Nat → Nat → Option Nat
  | 0, _ => none
  | fuel + 1, i => do
    if ← khStops h key i then
      return if ← ac_iseither h.flags i then h.n_buckets else i
    let i := (i + inc) &&& mask
    if i = last then return h.n_buckets
    khGetLoop h key mask inc last fuel i

def kh_get_A (h : KhA Key Data) (key : Key) : Option Nat :=
  if h.n_buckets ≠ 0 then
    let mask := h.n_buckets - 1
    let k := hash key
    let i := k.toNat &&& mask
    khGetLoop h key mask (ac_inc k mask) i h.n_buckets i
  else some 0

/-- while (!__ac_isempty(new_flags, i)) i = (i + inc) & new_mask; -/
def khEmptyLoop (new_flags : Flags) (new_mask inc : Nat) : Nat → Nat → Option Nat
  | 0, _ => none
  | fuel + 1, i => do
    if ← ac_isempty new_flags i then return i
    khEmptyLoop new_flags new_mask inc fuel ((i + inc) &&& new_mask)

def khUnmoved (h : KhA Key Data) (i : Nat) : Option Bool :=
  if i < h.n_buckets then (ac_iseither h.flags i).map (!·) else some false

/-- The kick-out process: the entry goes to its place, and the one it finds there is next. -/
def khKickOut (new_mask : Nat) : Nat → KhA Key Data → Flags → Key → Option Data →
    Option (KhA Key Data × Flags)
  | 0, _, _, _, _ => none
  | fuel + 1, h, new_flags, key, val => do
    let k := hash key
    let i ← khEmptyLoop new_flags new_mask (ac_inc k new_mask) (new_mask + 1) (k.toNat &&& new_mask)
    let new_flags ← ac_set_isempty_false new_flags i
    let unmoved ← khUnmoved h i
    if h.keys.length ≤ i ∨ h.vals.length ≤ i then none
    let h' := { h with keys := h.keys.set i (some key), vals := h.vals.set i val }
    if unmoved then
      let flags ← ac_set_isdel_true h.flags i
      khKickOut new_mask fuel { h' with flags := flags } new_flags (← h.keys[i]?.join) (← h.vals[i]?)
    else return (h', new_flags)

def khRehashBucket (new_mask : Nat) (r : KhA Key Data × Flags) (j : Nat) :
    Option (KhA Key Data × Flags) := do
  let (h, new_flags) := r
  if ← ac_iseither h.flags j then return (h, new_flags)
  let key ← h.keys[j]?.join
  let val ← h.vals[j]?
  let flags ← ac_set_isdel_true h.flags j
  khKickOut hash new_mask (h.n_buckets + 1) { h with flags := flags } new_flags key val

/-- kroundup32(new_n_buckets); if (new_n_buckets < 4) new_n_buckets = 4; -/
def rounded (new_n_buckets : Nat) : Nat :=
  let n := (kroundup32 (BitVec.ofNat 32 new_n_buckets)).toNat
  if n < 4 then 4 else n

def khExpand (h : KhA Key Data) (n : Nat) : KhA Key Data :=
  if h.n_buckets < n then { h with keys := realloc h.keys n, vals := realloc h.vals n } else h

def khShrink (h : KhA Key Data) (n : Nat) : KhA Key Data :=
  if h.n_buckets > n then { h with keys := realloc h.keys n, vals := realloc h.vals n } else h

def kh_resize_A (h : KhA Key Data) (new_n_buckets : Nat) : Option (KhA Key Data) := do
  let n := rounded new_n_buckets
  if h.size ≥ ac_upper n then return h
  let (moved, new_flags) ←
    (List.range h.n_buckets).foldlM (khRehashBucket hash (n - 1)) (khExpand h n, ac_fresh n)
  let h' := khShrink moved n
  return { h' with
    flags := new_flags, n_buckets := n, n_occupied := h'.size, upper_bound := ac_upper n }

def khPutLoop (h : KhA Key Data) (key : Key) (mask inc last : Nat) : Nat → Nat → Nat → Option Nat
  | 0, _, _ => none
  | fuel + 1, i, site => do
    if ← khStops h key i then
      return if (← ac_isempty h.flags i) && site != h.n_buckets then site else i
    let site := if ← ac_isdel h.flags i then i else site
    let i := (i + inc) &&& mask
    -- x = site: a whole round without an end, and x is i again where no site was seen
    if i = last then
      return if site = h.n_buckets then i else site
    khPutLoop h key mask inc last fuel i site

/-- if (h->n_occupied >= h->upper_bound): the deleted buckets are cleared, or there are more. -/
def khRoom (h : KhA Key Data) : Option (KhA Key Data) :=
  if h.n_occupied ≥ h.upper_bound then
    if h.n_buckets > (h.size <<< 1) % 2 ^ 32 then kh_resize_A hash h (h.n_buckets - 1)
    else kh_resize_A hash h (h.n_buckets + 1)
  else some h

def khBucket (h : KhA Key Data) (key : Key) : Option Nat := do
  let mask := h.n_buckets - 1
  let k := hash key
  let i := k.toNat &&& mask
  if ← ac_isempty h.flags i then return i
  khPutLoop h key mask (ac_inc k mask) i h.n_buckets i h.n_buckets

/-- The bucket, and 1, 2 or 0 where it was empty, deleted or the key's. -/
def kh_put_A (h : KhA Key Data) (key : Key) : Option (KhA Key Data × Nat × Nat) := do
  let h ← khRoom hash h
  let x ← khBucket hash h key
  if ← ac_isempty h.flags x then
    if h.keys.length ≤ x then none
    return ({ h with
      keys := h.keys.set x (some key), flags := ← ac_set_isboth_false h.flags x
      size := h.size + 1, n_occupied := h.n_occupied + 1 }, x, 1)
  else if ← ac_isdel h.flags x then
    if h.keys.length ≤ x then none
    return ({ h with
      keys := h.keys.set x (some key), flags := ← ac_set_isboth_false h.flags x
      size := h.size + 1 }, x, 2)
  else return (h, x, 0)

def kh_del_A (h : KhA Key Data) (x : Nat) : Option (KhA Key Data) := do
  if x = h.n_buckets then return h
  if ← ac_iseither h.flags x then return h
  return { h with flags := ← ac_set_isdel_true h.flags x, size := h.size - 1 }

end Operations

end GreaseLog
