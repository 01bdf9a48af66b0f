import Mathlib.Data.Fin.VecNotation
import Mathlib.Data.Fintype.Pi
import Mathlib.Data.Nat.Bitwise

/- The meta data of a log entry (grease_client.h) and the packed filter hashes
   (logger.h). Ids and masks are the 32-bit words of the source, hashes and
   pointers its 64-bit words. -/
namespace GreaseLog

abbrev Byte := UInt8
abbrev FilterHash := UInt64
abbrev FilterId := UInt32
abbrev TargetId := UInt32
abbrev OriginId := UInt32
abbrev TagId := UInt32
abbrev LevelMask := UInt32
/-- The address of a FilterList; 0 is NULL. -/
abbrev ListPtr := UInt64

def GREASE_MAX_MESSAGE_SIZE : Nat := 65535
def GREASE_MAX_PREFIX_HEADER : Nat := 128
def GREASE_META_HASHLIST_CACHE_SIZE : Nat := 4
def MAX_IGNORE_LIST : Nat := 10
def DEFAULT_TARGET : TargetId := 0
def ALL_LEVELS : LevelMask := 0xFFFFFFFF
def GREASE_TAG_NATIVE : TagId := 0xFFF03
def NO_CACHED_HASH : FilterHash := 0xFFFFFFFFFFFFFFFF

-- One name for the proofs behind the positions in cachedHash and cachedLists.
instance threeHashes : NeZero 3 := ⟨by decide⟩
instance fourLists : NeZero 4 := ⟨by decide⟩

structure LogMeta where
  tag : TagId
  level : LevelMask
  origin : OriginId
  target : TargetId
  extras : UInt32
  cachedHash : Fin 3 → FilterHash
  cachedLists : Fin 4 → ListPtr
  deriving DecidableEq

/-- extra_logMeta: the ignore list lies right behind the meta it belongs to. -/
structure ExtraLogMeta where
  m : LogMeta
  ignoreList : Fin 11 → TargetId
  deriving DecidableEq

def noMetaData : LogMeta where
  tag := GREASE_TAG_NATIVE
  level := 0
  origin := 0
  target := 0
  extras := 0
  cachedHash := ![NO_CACHED_HASH, 0, 0]
  cachedLists := fun _ => 0

def LogMeta.hasCache (m : LogMeta) : Bool := m.cachedHash 0 != NO_CACHED_HASH

def LogMeta.hasIgnores (m : LogMeta) : Bool := m.extras != 0

def LogMeta.setList (m : LogMeta) (n : Fin 4) (p : ListPtr) : LogMeta :=
  { m with cachedLists := Function.update m.cachedLists n p }

/-- A meta as every caller inside the process builds it. -/
def LogMeta.Fresh (m : LogMeta) : Prop :=
  m.hasCache = false ∧ ∀ n, m.cachedLists n = 0

instance (m : LogMeta) : Decidable m.Fresh :=
  inferInstanceAs (Decidable (_ ∧ _))

/-- The ignored targets: the entries before the first 0. -/
def ExtraLogMeta.ignores (x : ExtraLogMeta) : List TargetId :=
  (List.ofFn x.ignoreList).takeWhile (· != 0)

/-- The list is 0 terminated, as grease_client.h documents it. -/
def ExtraLogMeta.Terminated (x : ExtraLogMeta) : Prop := x.ignoreList 10 = 0

def filterhash (tag : TagId) (origin : OriginId) : FilterHash :=
  ((0xFFFFFFFF00000000 : UInt64) &&& (origin.toUInt64 <<< 32)) ||| tag.toUInt64

def getHashes (tag : TagId) (origin : OriginId) : Fin 3 → FilterHash :=
  ![filterhash tag origin,
    filterhash tag origin &&& 0xFFFFFFFF00000000,
    filterhash tag origin &&& 0x00000000FFFFFFFF]

theorem high_word_and (n : Nat) :
    0xFFFFFFFF00000000 &&& n = (n / 2 ^ 32 % 2 ^ 32) * 2 ^ 32 := by
  have mask : (0xFFFFFFFF00000000 : Nat) = (2 ^ 32 - 1) <<< 32 := by decide
  rw [mask]
  apply Nat.eq_of_testBit_eq
  intro i
  simp only [Nat.testBit_and, Nat.testBit_shiftLeft, Nat.testBit_mul_two_pow,
    Nat.testBit_mod_two_pow, Nat.testBit_div_two_pow, Nat.testBit_two_pow_sub_one]
  by_cases high : 32 ≤ i <;> simp [high]

theorem filterhash_toNat (tag : TagId) (origin : OriginId) :
    (filterhash tag origin).toNat = origin.toNat * 2 ^ 32 + tag.toNat := by
  have ho := origin.toNat_lt
  have ht := tag.toNat_lt
  have shifted : (origin.toNat <<< 32) % 2 ^ 64 = origin.toNat * 2 ^ 32 := by
    rw [Nat.shiftLeft_eq, Nat.mod_eq_of_lt]
    omega
  have mask : (0xFFFFFFFF00000000 : UInt64).toNat = 0xFFFFFFFF00000000 := rfl
  have amount : (32 : UInt64).toNat % 64 = 32 := rfl
  simp only [filterhash, UInt64.toNat_or, UInt64.toNat_and, UInt64.toNat_shiftLeft,
    UInt32.toNat_toUInt64]
  rw [mask, amount, shifted, high_word_and, ← Nat.shiftLeft_eq,
    ← Nat.shiftLeft_add_eq_or_of_lt ht, Nat.shiftLeft_eq]
  omega

theorem filterhash_injective {tag tag' : TagId} {origin origin' : OriginId}
    (same : filterhash tag origin = filterhash tag' origin') : tag = tag' ∧ origin = origin' := by
  have words := congrArg UInt64.toNat same
  rw [filterhash_toNat, filterhash_toNat] at words
  have ht := tag.toNat_lt
  have ht' := tag'.toNat_lt
  exact ⟨UInt32.toNat_inj.mp (by omega), UInt32.toNat_inj.mp (by omega)⟩

theorem filterhash_origin_part (tag : TagId) (origin : OriginId) :
    filterhash tag origin &&& 0xFFFFFFFF00000000 = filterhash 0 origin := by
  apply UInt64.toNat_inj.mp
  have ht := tag.toNat_lt
  have ho := origin.toNat_lt
  have mask : (0xFFFFFFFF00000000 : UInt64).toNat = 0xFFFFFFFF00000000 := rfl
  rw [UInt64.toNat_and, mask, Nat.land_comm, high_word_and, filterhash_toNat, filterhash_toNat]
  simp
  omega

theorem filterhash_tag_part (tag : TagId) (origin : OriginId) :
    filterhash tag origin &&& 0x00000000FFFFFFFF = filterhash tag 0 := by
  apply UInt64.toNat_inj.mp
  have ht := tag.toNat_lt
  have mask : (0x00000000FFFFFFFF : UInt64).toNat = 2 ^ 32 - 1 := rfl
  rw [UInt64.toNat_and, mask, Nat.and_two_pow_sub_one_eq_mod, filterhash_toNat, filterhash_toNat]
  simp

theorem filterhash_zero : filterhash 0 0 = 0 := by decide

theorem getHashes_keys (tag : TagId) (origin : OriginId) :
    getHashes tag origin = ![filterhash tag origin, filterhash 0 origin, filterhash tag 0] := by
  rw [getHashes, filterhash_origin_part, filterhash_tag_part]

end GreaseLog
