import GreaseLog.Lib.Runs
import GreaseLog.RotationLimits
import Mathlib.Data.Nat.ModEq

/- The two counters of a file target: the writes under way and the size of the
   current file. A list of actions is any interleaving of the logger thread's work
   with the completions of its writes. -/
namespace GreaseLog

structure FileWrites where
  enabled : Bool
  maxFileSize : Nat
  submittedWrites : Int
  currentSize : Nat
  /-- The sizes of the writes whose callback has not run. -/
  inFlight : List Nat
  /-- What writev() has been given, while it has not returned. -/
  overflow : Option Nat
  /-- The size of the current file when it was opened. -/
  openedSize : Nat
  /-- The bytes submitted to the current file since. -/
  submitted : Nat
  /-- Those of them that writev() did not take. -/
  dropped : Nat
  /-- A file was closed with a write under way. -/
  closedEarly : Bool
  deriving DecidableEq, Repr

namespace FileWrites

inductive Action where
  | flush (len : Nat)
  | writeCb (i : Nat)
  | flushSync (len : Nat)
  | overflowStart (need : Nat)
  /-- `none` when writev() fails. -/
  | overflowEnd (got : Option Nat)
  deriving DecidableEq, Repr

/-- The file is there with this size, or is not there, and O_TRUNC may empty it.
    Only with rotation does check_files() look at it. -/
def start (enabled truncates : Bool) (maxFileSize : Nat) (size : Option Nat) : FileWrites :=
  { enabled := enabled
    maxFileSize := maxFileSize
    submittedWrites := 0
    currentSize := if enabled then size.getD 0 % 2 ^ 32 else 0
    inFlight := []
    overflow := none
    openedSize := if truncates then 0 else size.getD 0
    submitted := 0
    dropped := 0
    closedEarly := false }

def rotate (s : FileWrites) : FileWrites :=
  { s with
    currentSize := 0
    openedSize := 0
    submitted := 0
    dropped := 0
    closedEarly := s.closedEarly || !s.inFlight.isEmpty || s.overflow.isSome }

def sizeAfter (s : FileWrites) (sz : Option Nat) : Nat :=
  match sz with
  | some n => (s.currentSize + n) % 2 ^ 32
  | none => s.currentSize

def checkAndMaybeRotate (s : FileWrites) (sz : Option Nat) : FileWrites :=
  let s := { s with submittedWrites := s.submittedWrites - 1, currentSize := s.sizeAfter sz }
  if s.submittedWrites < 1 ∧ s.enabled = true ∧ s.currentSize > s.maxFileSize then s.rotate else s

def apply (s : FileWrites) : Action → FileWrites
  | .flush len =>
    { s with
      currentSize := (s.currentSize + len) % 2 ^ 32
      submittedWrites := s.submittedWrites + 1
      inFlight := s.inFlight ++ [len]
      submitted := s.submitted + len }
  | .writeCb i =>
    if i < s.inFlight.length then
      ({ s with inFlight := s.inFlight.eraseIdx i }).checkAndMaybeRotate none
    else s
  | .flushSync len => ({ s with submitted := s.submitted + len }).checkAndMaybeRotate none
  | .overflowStart need =>
    match s.overflow with
    | some _ => s
    | none => { s with submittedWrites := s.submittedWrites + 1, overflow := some need }
  | .overflowEnd got =>
    match s.overflow, got with
    | none, _ => s
    | some need, none =>
      { s with
        submitted := s.submitted + need
        dropped := s.dropped + need
        overflow := none
        submittedWrites := s.submittedWrites - 1 }
    | some need, some got =>
      ({ s with
          submitted := s.submitted + need
          dropped := s.dropped + (need - got)
          overflow := none }).checkAndMaybeRotate (some got)

/-- Both counters are what they stand for, and no file was closed too early. -/
structure Accounted (s : FileWrites) : Prop where
  writes : s.submittedWrites = s.inFlight.length + s.overflow.toList.length
  size : s.currentSize = (s.openedSize + s.submitted) % 2 ^ 32
  open_ : s.closedEarly = false

def Rotates (s : FileWrites) (sz : Option Nat) : Prop :=
  s.submittedWrites - 1 < 1 ∧ s.enabled = true ∧ s.sizeAfter sz > s.maxFileSize

/-- The actions that keep the account: all but a synchronous write, and a writev()
    only if it takes all that it is given or the file is then rotated away. -/
def Keeps (s : FileWrites) : Action → Prop
  | .flushSync _ => False
  | .overflowEnd got =>
    match s.overflow, got with
    | none, _ => True
    | some need, none => 0 ≡ need [MOD 2 ^ 32]
    | some need, some n => s.Rotates (some n) ∨ n ≡ need [MOD 2 ^ 32]
  | _ => True

variable {s : FileWrites}

theorem checkAndMaybeRotate_counts (s : FileWrites) (sz : Option Nat) :
    (s.checkAndMaybeRotate sz).submittedWrites = s.submittedWrites - 1 ∧
      (s.checkAndMaybeRotate sz).inFlight = s.inFlight ∧
      (s.checkAndMaybeRotate sz).overflow = s.overflow := by
  rw [checkAndMaybeRotate]
  split
  · exact ⟨rfl, rfl, rfl⟩
  · exact ⟨rfl, rfl, rfl⟩

theorem checkAndMaybeRotate_cases (s : FileWrites) (sz : Option Nat)
    (writes : s.submittedWrites - 1 = s.inFlight.length + s.overflow.toList.length) :
    (s.Rotates sz ∧ s.inFlight = [] ∧ s.overflow = none ∧ s.checkAndMaybeRotate sz =
        { s with submittedWrites := s.submittedWrites - 1, currentSize := s.sizeAfter sz }.rotate) ∨
      (¬ s.Rotates sz ∧ s.checkAndMaybeRotate sz =
        { s with submittedWrites := s.submittedWrites - 1, currentSize := s.sizeAfter sz }) := by
  rw [checkAndMaybeRotate]
  split
  · next rotates =>
    have low : s.submittedWrites - 1 < 1 := rotates.1
    have noWrites : s.inFlight = [] := List.length_eq_zero_iff.mp (by omega)
    have noOverflow : s.overflow = none := by
      cases given : s.overflow with
      | none => rfl
      | some need =>
        rw [given, Option.toList_some, List.length_singleton] at writes
        omega
    exact Or.inl ⟨rotates, noWrites, noOverflow, rfl⟩
  · next stays => exact Or.inr ⟨stays, rfl⟩

theorem checkAndMaybeRotate_accounted (s : FileWrites) (sz : Option Nat)
    (writes : s.submittedWrites - 1 = s.inFlight.length + s.overflow.toList.length)
    (open_ : s.closedEarly = false) :
    (s.checkAndMaybeRotate sz).Accounted ↔
      s.Rotates sz ∨ s.sizeAfter sz = (s.openedSize + s.submitted) % 2 ^ 32 := by
  rcases checkAndMaybeRotate_cases s sz writes with
    ⟨rotates, noWrites, noOverflow, result⟩ | ⟨stays, result⟩
  · rw [result]
    refine iff_of_true ⟨writes, rfl, ?_⟩ (Or.inl rotates)
    simp [rotate, noWrites, noOverflow, open_]
  · rw [result]
    constructor
    · intro accounted
      exact Or.inr accounted.size
    · rintro (rotates | same)
      · exact absurd rotates stays
      · exact ⟨writes, same, open_⟩

theorem size_iff {before opened submitted : Nat} (size : before = (opened + submitted) % 2 ^ 32)
    (n need : Nat) :
    (before + n) % 2 ^ 32 = (opened + (submitted + need)) % 2 ^ 32 ↔ n ≡ need [MOD 2 ^ 32] := by
  rw [size, Nat.mod_add_mod, ← Nat.add_assoc]
  exact ⟨Nat.ModEq.add_left_cancel' (opened + submitted), Nat.ModEq.add_left (opened + submitted)⟩

theorem writes_ended (writes : s.submittedWrites = s.inFlight.length + s.overflow.toList.length)
    {i : Nat} (inside : i < s.inFlight.length) :
    s.submittedWrites - 1 = (s.inFlight.eraseIdx i).length + s.overflow.toList.length := by
  rw [List.length_eraseIdx_of_lt inside]
  omega

theorem overflow_ended (writes : s.submittedWrites = s.inFlight.length + s.overflow.toList.length)
    {need : Nat} (given : s.overflow = some need) :
    s.submittedWrites - 1 = s.inFlight.length + (none : Option Nat).toList.length := by
  rw [given, Option.toList_some, List.length_singleton] at writes
  rw [Option.toList_none, List.length_nil]
  omega

theorem apply_accounted (accounted : s.Accounted) (a : Action) :
    (s.apply a).Accounted ↔ s.Keeps a := by
  obtain ⟨writes, size, open_⟩ := accounted
  cases a with
  | flush len =>
    refine iff_of_true ⟨?_, ?_, open_⟩ trivial
    · simp only [apply, writes, List.length_append, List.length_singleton]
      omega
    · simp only [apply, size, Nat.mod_add_mod, Nat.add_assoc]
  | writeCb i =>
    rw [apply]
    split
    · next inside =>
      have ended := checkAndMaybeRotate_accounted { s with inFlight := s.inFlight.eraseIdx i } none
        (writes_ended writes inside) open_
      exact iff_of_true (ended.mpr (Or.inr size)) trivial
    · exact iff_of_true ⟨writes, size, open_⟩ trivial
  | flushSync len =>
    refine iff_of_false ?_ id
    intro after
    obtain ⟨fewer, same, alone⟩ := checkAndMaybeRotate_counts { s with submitted := s.submitted + len } none
    have counted := after.writes
    simp only [apply, fewer, same, alone] at counted
    omega
  | overflowStart need =>
    rw [apply]
    split
    · exact iff_of_true ⟨writes, size, open_⟩ trivial
    · next idle =>
      refine iff_of_true ⟨?_, size, open_⟩ trivial
      rw [idle] at writes
      simpa using writes
  | overflowEnd got =>
    cases given : s.overflow with
    | none =>
      simp only [apply, Keeps, given]
      exact iff_of_true ⟨writes, size, open_⟩ trivial
    | some need =>
      have rest := overflow_ended writes given
      cases got with
      | none =>
        have small : (s.currentSize + 0) % 2 ^ 32 = s.currentSize := by
          rw [Nat.add_zero, size, Nat.mod_mod]
        simp only [apply, Keeps, given]
        rw [← size_iff size 0 need, small]
        constructor
        · exact fun after => after.size
        · exact fun same => ⟨rest, same, open_⟩
      | some n =>
        simp only [apply, Keeps, given]
        rw [← size_iff size n need]
        exact checkAndMaybeRotate_accounted
          { s with submitted := s.submitted + need, dropped := s.dropped + (need - n), overflow := none }
          (some n) rest open_

def SizeKnown (enabled truncates : Bool) (size : Option Nat) : Prop :=
  enabled = !truncates ∨ 2 ^ 32 ∣ size.getD 0

theorem opened_size_iff (enabled truncates : Bool) (size w : Nat) :
    (if enabled then size % w else 0) = ((if truncates then 0 else size) + 0) % w ↔
      enabled = !truncates ∨ w ∣ size := by
  rw [Nat.dvd_iff_mod_eq_zero, Nat.add_zero]
  cases enabled <;> cases truncates <;> simp [eq_comm]

theorem start_accounted (enabled truncates : Bool) (maxFileSize : Nat) (size : Option Nat) :
    (start enabled truncates maxFileSize size).Accounted ↔ SizeKnown enabled truncates size := by
  refine Iff.trans ?_ (opened_size_iff enabled truncates (size.getD 0) (2 ^ 32))
  constructor
  · intro accounted
    exact accounted.size
  · intro same
    exact ⟨rfl, same, rfl⟩

/-- Every state of a run has its counters right exactly if the size was known at
    the start and each action keeps the account. -/
theorem writes_accounted_iff (enabled truncates : Bool) (maxFileSize : Nat) (size : Option Nat)
    (actions : List Action) :
    (∀ n, ((actions.take n).foldl apply (start enabled truncates maxFileSize size)).Accounted) ↔
      SizeKnown enabled truncates size ∧
        Runs.Checked Keeps apply (start enabled truncates maxFileSize size) actions := by
  rw [← start_accounted enabled truncates maxFileSize]
  have each : ∀ (s : FileWrites) (a : Action), s.Accounted → ((s.apply a).Accounted ↔ s.Keeps a) :=
    fun _ a accounted => apply_accounted accounted a
  exact Runs.always_iff_checked each actions _

/-- A synchronous write ends the account of the asynchronous one before it, and
    the file is rotated away while that is under way. -/
theorem flushSync_closes_early :
    ¬ ([.flush 10, .flushSync 5].foldl apply (start true false 4 none)).Accounted ∧
      ([.flush 10, .flushSync 5].foldl apply (start true false 4 none)).closedEarly = true := by
  have early : ([.flush 10, .flushSync 5].foldl apply (start true false 4 none)).closedEarly = true := by
    decide +kernel
  refine ⟨?_, early⟩
  intro accounted
  rw [accounted.open_] at early
  cases early

structure Written (s : FileWrites) : Prop where
  writes : s.submittedWrites = s.inFlight.length + s.overflow.toList.length
  size : s.currentSize + s.dropped ≡ s.openedSize + s.submitted [MOD 2 ^ 32]
  open_ : s.closedEarly = false

/-- An asynchronous action; writev() takes no more than it is given. -/
def Asynchronous (s : FileWrites) : Action → Prop
  | .flushSync _ => False
  | .overflowEnd (some got) => ∀ need ∈ s.overflow, got ≤ need
  | _ => True

theorem sizeAfter_modEq (s : FileWrites) (sz : Option Nat) :
    s.sizeAfter sz ≡ s.currentSize + sz.getD 0 [MOD 2 ^ 32] := by
  cases sz with
  | none => exact Nat.ModEq.refl _
  | some n => exact Nat.mod_modEq _ _

theorem checkAndMaybeRotate_written (s : FileWrites) (sz : Option Nat)
    (writes : s.submittedWrites - 1 = s.inFlight.length + s.overflow.toList.length)
    (size : s.currentSize + sz.getD 0 + s.dropped ≡ s.openedSize + s.submitted [MOD 2 ^ 32])
    (open_ : s.closedEarly = false) : (s.checkAndMaybeRotate sz).Written := by
  rcases checkAndMaybeRotate_cases s sz writes with ⟨_, noWrites, noOverflow, result⟩ | ⟨_, result⟩
  · rw [result]
    refine ⟨writes, rfl, ?_⟩
    simp [rotate, noWrites, noOverflow, open_]
  · rw [result]
    exact ⟨writes, ((sizeAfter_modEq s sz).add_right s.dropped).trans size, open_⟩

theorem apply_written (written : s.Written) (a : Action) (asynchronous : s.Asynchronous a) :
    (s.apply a).Written := by
  obtain ⟨writes, size, open_⟩ := written
  cases a with
  | flush len =>
    refine ⟨?_, ?_, open_⟩
    · simp only [apply, writes, List.length_append, List.length_singleton]
      omega
    · have more := size.add_right len
      rw [Nat.add_right_comm s.currentSize, Nat.add_assoc s.openedSize] at more
      exact ((Nat.mod_modEq _ _).add_right s.dropped).trans more
  | writeCb i =>
    rw [apply]
    split
    · next inside =>
      exact checkAndMaybeRotate_written { s with inFlight := s.inFlight.eraseIdx i } none
        (writes_ended writes inside) size open_
    · exact ⟨writes, size, open_⟩
  | flushSync len => exact absurd asynchronous id
  | overflowStart need =>
    rw [apply]
    split
    · exact ⟨writes, size, open_⟩
    · next idle =>
      refine ⟨?_, size, open_⟩
      rw [idle] at writes
      simpa using writes
  | overflowEnd got =>
    cases given : s.overflow with
    | none =>
      simp only [apply, given]
      exact ⟨writes, size, open_⟩
    | some need =>
      have rest := overflow_ended writes given
      have more := size.add_right need
      rw [Nat.add_assoc, Nat.add_assoc] at more
      cases got with
      | none =>
        simp only [apply, given]
        exact ⟨rest, more, open_⟩
      | some n =>
        have within : n ≤ need := asynchronous need given
        have parts : s.currentSize + n + (s.dropped + (need - n)) = s.currentSize + (s.dropped + need) := by
          omega
        rw [← parts] at more
        simp only [apply, given]
        exact checkAndMaybeRotate_written
          { s with submitted := s.submitted + need, dropped := s.dropped + (need - n), overflow := none }
          (some n) rest more open_

/-- Without synchronous writes, the size counts what was written, also when
    writev() is short or fails. -/
theorem written_always {actions : List Action} (written : s.Written)
    (asynchronous : Runs.Checked Asynchronous apply s actions) : (actions.foldl apply s).Written := by
  induction actions generalizing s with
  | nil => exact written
  | cons a rest ih => exact ih (apply_written written a asynchronous.1) asynchronous.2

section
open FileShift
open FileRotation (current listed)

theorem start_checkFiles {opts : RotationOpts} {files : Nat → Option Contents} {ft : FileTarget}
    {needsRotation : Bool} (checked : checkFiles opts (opened files) = some (ft, needsRotation))
    (truncates : Bool) (maxFileSize : Nat) :
    ft.currentSize =
      (start true truncates maxFileSize ((files current).map List.length)).currentSize := by
  simp only [checkFiles, Option.map_eq_some_iff] at checked
  obtain ⟨found, _, same⟩ := checked
  rw [← (Prod.mk.inj same).1]
  cases there : files current <;> simp [opened, FileSystem.stat, FileSystem.at?, there, start]

theorem rotate_rotateFiles {opts : RotationOpts} {ft ft' : FileTarget} {m : Nat}
    (lists : Lists ft (listed m)) (contents : Contents)
    (rotated : rotateFiles opts (ft.write contents) = some ft') (s : FileWrites) :
    ft'.currentSize = s.rotate.currentSize ∧
      ((ft'.fs.files current).map List.length).getD 0 = s.rotate.openedSize := by
  have here : Lists (ft.write contents) (listed m) := ⟨lists.room, lists.holds⟩
  obtain ⟨fs, files, _, left, fs', size, _⟩ := rotated_eq here (write_current ft contents) rotated
  refine ⟨size, ?_⟩
  rw [fs', FileSystem.rename_there left]
  rfl

end

end FileWrites

end GreaseLog
