import GreaseLog.Format

/- Custom error numbers and the table of their texts (error-common.cc). What lies
   in memory behind the table is arbitrary. -/
namespace GreaseLog.CustomErrors

def GREASE_UNKNOWN_FAILURE : Int := 4001
def GREASE_UNKNOWN_TTY : Int := 4002
def GREASE_UNKNOWN_NO_PATH : Int := 4003

def CUSTOM_ERROR_CUTOFF : Int := 4000

def MAX_STRDUP : Nat := 4096

/-- A char pointer: one of the texts of the table, or any address. -/
inductive CharPtr where
  | literal (text : List Byte)
  | address (a : UInt64)
  deriving DecidableEq

def NULL : CharPtr := .address 0

def text (s : String) : List Byte := s.toList.map fun c => c.toNat.toUInt8

structure CustomErrno where
  label : CharPtr
  code : Int
  deriving DecidableEq

def customErrs : List CustomErrno :=
  [⟨.literal (text "Unknown TTY."), GREASE_UNKNOWN_TTY⟩,
    ⟨.literal (text "Unknown failure."), GREASE_UNKNOWN_FAILURE⟩,
    ⟨.literal (text "Call needs path."), GREASE_UNKNOWN_NO_PATH⟩]

inductive DataModel where
  | ilp32
  | lp64

/-- A pointer and an int, padded to the alignment of the pointer. -/
def DataModel.sizeofEntry : DataModel → Nat
  | .ilp32 => 8
  | .lp64 => 16

/-- The memory behind the table, read as entries, and the strings at other addresses. -/
structure Memory where
  model : DataModel
  behind : Nat → CustomErrno
  stringAt : UInt64 → List Byte

namespace Memory

def entry (mem : Memory) (i : Nat) : CustomErrno := customErrs.getD i (mem.behind i)

def sizeofCustomErrs (mem : Memory) : Nat := customErrs.length * mem.model.sizeofEntry

def string (mem : Memory) : CharPtr → List Byte
  | .literal text => text
  | .address a => mem.stringAt a

/-- The loop of get_custom_err_str: the entries that it reads, and what it returns. -/
def search (mem : Memory) (errno : Int) : Nat → List Nat × CharPtr
  | 0 => ([], NULL)
  | n + 1 =>
    if (mem.entry n).code = errno then ([n], (mem.entry n).label)
    else
      let r := mem.search errno n
      (n :: r.1, r.2)

def getCustomErrStr (mem : Memory) (errno : Int) : List Nat × CharPtr :=
  mem.search errno mem.sizeofCustomErrs

end Memory

def localStrdupSafe (s : List Byte) : List Byte := s.take MAX_STRDUP

structure ErrEv where
  errstr : List Byte
  errno : Int
  deriving DecidableEq

structure JSError where
  message : List Byte
  errno : UInt32
  deriving DecidableEq

-- The parameters are strerror_r, the strings that pointers lead to, and the lookup.
section
variable (strerror : Int → List Byte) (string : CharPtr → List Byte) (customErrStr : Int → CharPtr)

def setError (e : Int) (m : Option (List Byte)) : ErrEv :=
  match m with
  | none =>
    if e < CUSTOM_ERROR_CUTOFF then ⟨strerror e, e⟩
    else
      let custom := customErrStr e
      if custom ≠ NULL then ⟨localStrdupSafe (string custom), e⟩
      else ⟨localStrdupSafe (text "Unknown Error."), e⟩
  | some m => ⟨localStrdupSafe m, e⟩

/-- An errno of 0 makes no error. -/
def errnoToJSError (errno : Int) (pre : Option (List Byte)) : Option JSError :=
  if errno = 0 then none
  else
    let errstr :=
      if errno < CUSTOM_ERROR_CUTOFF then some (strerror errno)
      else
        let custom := customErrStr errno
        if custom ≠ NULL then some (string custom) else none
    let message :=
      match errstr with
      | some errstr => pre.getD [] ++ errstr
      | none => text "Error"
    some ⟨message, UInt32.ofInt errno⟩

end

def labelOf (errno : Int) : CharPtr :=
  match customErrs.find? fun e => e.code = errno with
  | some e => e.label
  | none => NULL

/-- The lookup reads the table only, and answers with the label of the code; so do its
    two callers. -/
structure StaysInside (mem : Memory) (errno : Int) : Prop where
  reads : ∀ i ∈ (mem.getCustomErrStr errno).1, i < customErrs.length
  answer : (mem.getCustomErrStr errno).2 = labelOf errno
  setError : ∀ strerror m,
    setError strerror mem.string (fun e => (mem.getCustomErrStr e).2) errno m =
      setError strerror mem.string labelOf errno m
  errnoToJSError : ∀ strerror pre,
    errnoToJSError strerror mem.string (fun e => (mem.getCustomErrStr e).2) errno pre =
      errnoToJSError strerror mem.string labelOf errno pre

/-- What the loop takes for the entry of a code before it comes to the table. -/
def Memory.stray (mem : Memory) (errno : Int) : Option CustomErrno :=
  ((List.range' customErrs.length (mem.sizeofCustomErrs - customErrs.length)).reverse.map
    mem.entry).find? fun e => e.code = errno

namespace Memory
variable (mem : Memory) (errno : Int)

theorem search_length (n : Nat) : (mem.search errno n).1.length ≤ n := by
  induction n with
  | zero => exact Nat.le_refl 0
  | succ n ih =>
    rw [search]
    split
    · simp
    · simp only [List.length_cons]
      omega

theorem search_reads_last (n : Nat) : n ∈ (mem.search errno (n + 1)).1 := by
  rw [search]
  split <;> simp

theorem search_finds (k n : Nat) :
    (mem.search errno (k + n)).2 =
      match ((List.range' k n).reverse.map mem.entry).find? fun e => e.code = errno with
      | some e => e.label
      | none => (mem.search errno k).2 := by
  induction n with
  | zero => rfl
  | succ n ih =>
    rw [List.range'_concat, List.reverse_append, ← Nat.add_assoc, search]
    simp only [Nat.one_mul, List.reverse_cons, List.reverse_nil, List.nil_append,
      List.cons_append, List.map_cons, List.find?_cons]
    by_cases found : (mem.entry (k + n)).code = errno
    · simp [found]
    · simp only [found, decide_false, if_false]
      exact ih

theorem search_table : (mem.search errno customErrs.length).2 = labelOf errno := by
  have entries : mem.entry 0 = customErrs[0] ∧ mem.entry 1 = customErrs[1] ∧
      mem.entry 2 = customErrs[2] := ⟨rfl, rfl, rfl⟩
  obtain ⟨first, second, third⟩ := entries
  have length : customErrs.length = 0 + 1 + 1 + 1 := rfl
  rw [length, search, search, search, search, first, second, third]
  by_cases tty : errno = GREASE_UNKNOWN_TTY
  · subst tty
    rfl
  · by_cases failure : errno = GREASE_UNKNOWN_FAILURE
    · subst failure
      rfl
    · by_cases path : errno = GREASE_UNKNOWN_NO_PATH
      · subst path
        rfl
      · simp [labelOf, customErrs, Ne.symm tty, Ne.symm failure, Ne.symm path]

theorem sizeof_past_table : customErrs.length < mem.sizeofCustomErrs := by
  unfold sizeofCustomErrs
  cases mem.model <;> decide

theorem getCustomErrStr_eq :
    (mem.getCustomErrStr errno).2 =
      match mem.stray errno with
      | some e => e.label
      | none => labelOf errno := by
  have size := sizeof_past_table mem
  have split : mem.sizeofCustomErrs =
      customErrs.length + (mem.sizeofCustomErrs - customErrs.length) := by omega
  rw [getCustomErrStr, split, search_finds, search_table]
  rfl

theorem answer_iff :
    (mem.getCustomErrStr errno).2 = labelOf errno ↔
      ∀ e, mem.stray errno = some e → e.label = labelOf errno := by
  rw [getCustomErrStr_eq]
  cases mem.stray errno with
  | none => simp
  | some e => simp

/-- The first entry that is read is the one whose number is the size in bytes less one. -/
theorem reads_behind :
    ∃ i ∈ (mem.getCustomErrStr errno).1, i + 1 = mem.sizeofCustomErrs ∧ customErrs.length ≤ i := by
  have size := sizeof_past_table mem
  obtain ⟨i, last⟩ := Nat.exists_eq_succ_of_ne_zero (Nat.ne_of_gt (Nat.zero_lt_of_lt size))
  have read := search_reads_last mem errno i
  rw [getCustomErrStr, last]
  exact ⟨i, read, rfl, by omega⟩

end Memory

/-- For no error number does the loop stay inside the table. It ends, and its answer and
    those of its callers are right as long as nothing behind the table is taken for the
    entry of the code. -/
theorem lookup_leaves_table (mem : Memory) (errno : Int) :
    ¬ StaysInside mem errno ∧
      (mem.getCustomErrStr errno).1.length ≤ mem.sizeofCustomErrs ∧
      ((mem.getCustomErrStr errno).2 = labelOf errno ↔
        ∀ e, mem.stray errno = some e → e.label = labelOf errno) ∧
      ((∀ e, mem.stray errno = some e → e.label = labelOf errno) →
        (∀ strerror m,
          setError strerror mem.string (fun e => (mem.getCustomErrStr e).2) errno m =
            setError strerror mem.string labelOf errno m) ∧
        ∀ strerror pre,
          errnoToJSError strerror mem.string (fun e => (mem.getCustomErrStr e).2) errno pre =
            errnoToJSError strerror mem.string labelOf errno pre) := by
  constructor
  · intro inside
    obtain ⟨i, read, _, behind⟩ := mem.reads_behind errno
    exact Nat.not_lt.mpr behind (inside.reads i read)
  · refine ⟨mem.search_length errno _, mem.answer_iff errno, ?_⟩
    intro none_taken
    have answer := (mem.answer_iff errno).mpr none_taken
    constructor
    · intro strerror m
      simp only [setError, answer]
    · intro strerror pre
      simp only [errnoToJSError, answer]

def strayMemory : Memory where
  model := .lp64
  behind i := if i = 40 then ⟨.address 4096, GREASE_UNKNOWN_NO_PATH⟩ else ⟨NULL, 0⟩
  stringAt _ := text "other data"

/-- The entries 47 to 40 are read, and what is found there is no label of the table. -/
theorem no_path_reads_behind :
    strayMemory.getCustomErrStr GREASE_UNKNOWN_NO_PATH =
        ([47, 46, 45, 44, 43, 42, 41, 40], .address 4096) ∧
      (setError (fun _ => []) strayMemory.string (fun e => (strayMemory.getCustomErrStr e).2)
          GREASE_UNKNOWN_NO_PATH none).errstr = text "other data" ∧
      ¬ StaysInside strayMemory GREASE_UNKNOWN_NO_PATH := by
  have read : strayMemory.getCustomErrStr GREASE_UNKNOWN_NO_PATH =
      ([47, 46, 45, 44, 43, 42, 41, 40], .address 4096) := by decide
  refine ⟨read, by decide, ?_⟩
  intro inside
  have bound := inside.reads 47 (by rw [read]; simp)
  exact absurd bound (by decide)

end GreaseLog.CustomErrors
