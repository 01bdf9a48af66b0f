import Mathlib.Data.Finset.Card
import Mathlib.Order.Interval.Finset.Nat

/- The files of a rotated log. On disk a file is its number: 0 is the current
   file and n the rotated file whose name ends in ".n". A null path is `none`.
   `rotation` is `rotate_files` and the re-opening that follows it. -/
namespace GreaseLog.FileRotation

def MAX_ROTATED_FILES : Nat := 10

abbrev Disk := Finset Nat

def current : Nat := 0

def strRotateName (n : Nat) : Option Nat :=
  if n < MAX_ROTATED_FILES ∧ n > 0 then some n else none

structure RotatedFile where
  path : Option Nat
  num : Nat
  deriving DecidableEq, Repr

def rotatedFile (n : Nat) : RotatedFile := ⟨strRotateName n, n⟩

/-- The system calls fail on a null path and on a file that is not there. -/
def stat (disk : Disk) (path : Option Nat) : Bool :=
  match path with
  | some n => n ∈ disk
  | none => false

def unlink (disk : Disk) (path : Option Nat) : Option Disk :=
  match path with
  | some n => if n ∈ disk then some (disk.erase n) else none
  | none => none

def rename (disk : Disk) (path newPath : Option Nat) : Option Disk :=
  match path, newPath with
  | some n, some m => if n ∈ disk then some (insert m (disk.erase n)) else none
  | _, _ => none

/-- The file target between rotations; `failed` remembers a call that did not succeed. -/
structure FileLog where
  disk : Disk
  rotatedFiles : List RotatedFile
  failed : Bool
  deriving DecidableEq

/-- `rotatedFiles` is here the list that the rotation builds in `tempFiles`. -/
def FileLog.removeOldest (log : FileLog) (f : RotatedFile) : FileLog :=
  match unlink log.disk f.path with
  | some disk => { log with disk := disk }
  | none => { log with failed := true }

/-- The file is listed under its new name also when the call failed. -/
def FileLog.moveUp (log : FileLog) (f : RotatedFile) : FileLog :=
  let newFile := rotatedFile (f.num + 1)
  match rename log.disk f.path newFile.path with
  | some disk => { log with disk := disk, rotatedFiles := log.rotatedFiles ++ [newFile] }
  | none => { log with failed := true, rotatedFiles := log.rotatedFiles ++ [newFile] }

def rotateEach (maxFiles : Nat) : Nat → List RotatedFile → FileLog → FileLog
  | _, [], log => log
  | n, f :: rest, log =>
    rotateEach maxFiles (n - 1) rest
      (if maxFiles ≠ 0 ∧ n + 1 > maxFiles then log.removeOldest f else log.moveUp f)

def FileLog.moveCurrent (log : FileLog) : FileLog :=
  let newFile := rotatedFile 1
  match rename log.disk (some current) newFile.path with
  | some disk => { log with disk := disk, rotatedFiles := log.rotatedFiles ++ [newFile] }
  | none => { log with failed := true }

def rotateFiles (maxFiles : Nat) (log : FileLog) : FileLog :=
  (rotateEach maxFiles log.rotatedFiles.length log.rotatedFiles
    { log with rotatedFiles := [] }).moveCurrent

def reopen (log : FileLog) : FileLog := { log with disk := insert current log.disk }

def rotation (maxFiles : Nat) (log : FileLog) : FileLog := reopen (rotateFiles maxFiles log)

def rotations (maxFiles : Nat) : Nat → FileLog → FileLog
  | 0, log => log
  | count + 1, log => rotation maxFiles (rotations maxFiles count log)

/-- The search of `check_files`, which stops at the first name that has no file. -/
def findFiles (disk : Disk) : Nat → Nat → List RotatedFile
  | 0, _ => []
  | fuel + 1, n =>
    if stat disk (strRotateName n) then rotatedFile n :: findFiles disk fuel (n + 1) else []

def checkFiles (disk : Disk) : List RotatedFile := (findFiles disk MAX_ROTATED_FILES 1).reverse

def startUp (count : Nat) : FileLog :=
  let disk := insert current (Finset.Icc 1 count)
  { disk := disk, rotatedFiles := checkFiles disk, failed := false }

def listed : Nat → List RotatedFile
  | 0 => []
  | m + 1 => rotatedFile (m + 1) :: listed m

theorem listed_length (m : Nat) : (listed m).length = m := by
  induction m with
  | zero => rfl
  | succ m ih => simp [listed, ih]

theorem stat_iff (disk : Disk) (n : Nat) :
    stat disk (strRotateName n) = true ↔ 0 < n ∧ n < MAX_ROTATED_FILES ∧ n ∈ disk := by
  by_cases named : n < MAX_ROTATED_FILES ∧ n > 0
  · simp [strRotateName, stat, named]
  · simp only [strRotateName, named, ↓reduceIte, stat, Bool.false_eq_true, false_iff]
    intro found
    exact named ⟨found.2.1, found.1⟩

theorem findFiles_contiguous (count fuel n : Nat) (low : 0 < n)
    (enough : MAX_ROTATED_FILES ≤ n + fuel) :
    (findFiles (insert current (Finset.Icc 1 count)) fuel n).reverse ++ listed (n - 1) =
      listed (max (n - 1) (min count 9)) := by
  induction fuel generalizing n with
  | zero =>
    have past : MAX_ROTATED_FILES ≤ n := by simpa using enough
    have far : max (n - 1) (min count 9) = n - 1 := by simp only [MAX_ROTATED_FILES] at past; omega
    simp [findFiles, far]
  | succ fuel ih =>
    by_cases found : stat (insert current (Finset.Icc 1 count)) (strRotateName n) = true
    · have here := (stat_iff _ n).mp found
      simp only [Finset.mem_insert, Finset.mem_Icc, current, MAX_ROTATED_FILES] at here
      have next := ih (n + 1) (by omega) (by omega)
      have same : max (n + 1 - 1) (min count 9) = max (n - 1) (min count 9) := by omega
      have before : listed n = rotatedFile n :: listed (n - 1) := by
        obtain ⟨m, rfl⟩ : ∃ m, n = m + 1 := ⟨n - 1, by omega⟩
        rfl
      rw [same] at next
      rw [findFiles, if_pos found, ← next, Nat.add_sub_cancel, before]
      simp
    · have absent : ¬ (0 < n ∧ n < MAX_ROTATED_FILES ∧ n ∈ insert current (Finset.Icc 1 count)) :=
        fun h => found ((stat_iff _ n).mpr h)
      simp only [Finset.mem_insert, Finset.mem_Icc, current, MAX_ROTATED_FILES] at absent
      have far : max (n - 1) (min count 9) = n - 1 := by omega
      simp [findFiles, found, far]

theorem checkFiles_contiguous (count : Nat) :
    checkFiles (insert current (Finset.Icc 1 count)) = listed (min count 9) := by
  have scan := findFiles_contiguous count MAX_ROTATED_FILES 1 (by omega) (by omega)
  simpa [checkFiles, listed] using scan

theorem removeOldest_failed {log : FileLog} {f : RotatedFile} (h : log.failed = true) :
    (log.removeOldest f).failed = true := by
  unfold FileLog.removeOldest
  split <;> simp [h]

theorem moveUp_failed {log : FileLog} {f : RotatedFile} (h : log.failed = true) :
    (log.moveUp f).failed = true := by
  unfold FileLog.moveUp
  simp only
  split <;> simp [h]

theorem rotateEach_failed (maxFiles : Nat) (files : List RotatedFile) (n : Nat) {log : FileLog}
    (h : log.failed = true) : (rotateEach maxFiles n files log).failed = true := by
  induction files generalizing n log with
  | nil => exact h
  | cons f rest ih =>
    apply ih
    split
    · exact removeOldest_failed h
    · exact moveUp_failed h

theorem rotation_failed (maxFiles : Nat) {log : FileLog} (h : log.failed = true) :
    (rotation maxFiles log).failed = true := by
  have each : (rotateEach maxFiles log.rotatedFiles.length log.rotatedFiles
      { log with rotatedFiles := [] }).failed = true :=
    rotateEach_failed maxFiles log.rotatedFiles log.rotatedFiles.length h
  simp only [rotation, reopen, rotateFiles, FileLog.moveCurrent]
  split
  · exact each
  · rfl

theorem ok_before {before after : FileLog} (kept : before.failed = true → after.failed = true)
    (ok : after.failed = false) : before.failed = false := by
  by_contra bad
  have stays := kept (eq_true_of_ne_false bad)
  rw [ok] at stays
  cases stays

theorem removeOldest_succeeds {log : FileLog} {f : RotatedFile}
    (ok : (log.removeOldest f).failed = false) :
    ∃ n, f.path = some n ∧ n ∈ log.disk ∧
      log.removeOldest f = { log with disk := log.disk.erase n } := by
  unfold FileLog.removeOldest unlink at *
  cases path : f.path with
  | none => simp [path] at ok
  | some n =>
    by_cases found : n ∈ log.disk
    · exact ⟨n, rfl, found, by simp [found]⟩
    · simp [path, found] at ok

theorem rename_succeeds {disk disk' : Disk} {path newPath : Option Nat}
    (ok : rename disk path newPath = some disk') :
    ∃ n m, path = some n ∧ newPath = some m ∧ n ∈ disk ∧ disk' = insert m (disk.erase n) := by
  unfold rename at ok
  cases path with
  | none => simp at ok
  | some n =>
    cases newPath with
    | none => simp at ok
    | some m =>
      by_cases found : n ∈ disk
      · simp only [found, ↓reduceIte, Option.some.injEq] at ok
        exact ⟨n, m, rfl, rfl, found, ok.symm⟩
      · simp [found] at ok

theorem rotateName_eq {n m : Nat} (h : strRotateName n = some m) :
    m = n ∧ 0 < n ∧ n < MAX_ROTATED_FILES := by
  unfold strRotateName at h
  split at h
  · next named => exact ⟨by simpa using h.symm, named.2, named.1⟩
  · cases h

theorem moveUp_succeeds {log : FileLog} {f : RotatedFile} (ok : (log.moveUp f).failed = false) :
    ∃ n, f.path = some n ∧ n ∈ log.disk ∧ f.num + 1 < MAX_ROTATED_FILES ∧
      log.moveUp f = { log with
        disk := insert (f.num + 1) (log.disk.erase n)
        rotatedFiles := log.rotatedFiles ++ [rotatedFile (f.num + 1)] } := by
  unfold FileLog.moveUp at *
  simp only at ok ⊢
  cases renamed : rename log.disk f.path (rotatedFile (f.num + 1)).path with
  | none => simp [renamed] at ok
  | some disk =>
    obtain ⟨n, m, path, named, found, result⟩ := rename_succeeds renamed
    obtain ⟨rfl, _, high⟩ := rotateName_eq named
    exact ⟨n, path, found, high, by simp [result]⟩

theorem moveCurrent_succeeds {log : FileLog} (ok : log.moveCurrent.failed = false) :
    log.failed = false ∧ log.moveCurrent = { log with
      disk := insert 1 (log.disk.erase current)
      rotatedFiles := log.rotatedFiles ++ [rotatedFile 1] } := by
  unfold FileLog.moveCurrent at *
  simp only at ok ⊢
  cases renamed : rename log.disk (some current) (rotatedFile 1).path with
  | none => simp [renamed] at ok
  | some disk =>
    obtain ⟨n, m, path, named, _, result⟩ := rename_succeeds renamed
    have one : m = 1 := by simpa using (rotateName_eq (n := 1) named).1
    have zero : current = n := by simpa using path
    simp only [renamed] at ok
    exact ⟨ok, by simp [result, one, zero]⟩

def upTo (m : Nat) (above : Finset Nat) : Disk := insert current (Finset.Icc 1 m ∪ above)

theorem mem_upTo {m x : Nat} {above : Finset Nat} :
    x ∈ upTo m above ↔ x ≤ m ∨ x ∈ above := by
  simp only [upTo, current, Finset.mem_insert, Finset.mem_union, Finset.mem_Icc]
  constructor
  · rintro (h | h | h)
    · exact Or.inl (by omega)
    · exact Or.inl h.2
    · exact Or.inr h
  · rintro (h | h)
    · by_cases zero : x = 0
      · exact Or.inl zero
      · exact Or.inr (Or.inl (by omega))
    · exact Or.inr (Or.inr h)

theorem upTo_removed {m : Nat} {above : Finset Nat} (high : ∀ x ∈ above, m + 1 < x) :
    (upTo (m + 1) above).erase (m + 1) = upTo m above := by
  ext x
  simp only [Finset.mem_erase, mem_upTo]
  constructor
  · rintro ⟨other, h | h⟩
    · exact Or.inl (by omega)
    · exact Or.inr h
  · rintro (h | h)
    · exact ⟨by omega, Or.inl (by omega)⟩
    · have := high x h
      exact ⟨by omega, Or.inr h⟩

theorem upTo_moved {m : Nat} {above : Finset Nat} (high : ∀ x ∈ above, m + 1 < x) :
    insert (m + 2) ((upTo (m + 1) above).erase (m + 1)) = upTo m (insert (m + 2) above) := by
  rw [upTo_removed high]
  ext x
  simp only [Finset.mem_insert, mem_upTo]
  exact or_left_comm

/-- The loop when the files 1 to m are still before it; `above` is what it has
    already moved, and what is never listed. -/
theorem rotateEach_listed {maxFiles : Nat} (limited : 0 < maxFiles) (m : Nat)
    (above : Finset Nat) (log : FileLog) (high : ∀ x ∈ above, m < x)
    (disk : log.disk = upTo m above)
    (ok : (rotateEach maxFiles m (listed m) log).failed = false) :
    min (m + 1) maxFiles < MAX_ROTATED_FILES ∧
      (∀ x, x ∈ (rotateEach maxFiles m (listed m) log).disk ↔
        x = current ∨ 2 ≤ x ∧ x ≤ min (m + 1) maxFiles ∨ x ∈ above) ∧
      (rotateEach maxFiles m (listed m) log).rotatedFiles ++ [rotatedFile 1] =
        log.rotatedFiles ++ listed (min (m + 1) maxFiles) := by
  induction m generalizing above log with
  | zero =>
    have one : min (0 + 1) maxFiles = 1 := by omega
    rw [one]
    refine ⟨by decide, ?_, by simp [listed, rotateEach]⟩
    intro x
    simp only [listed, rotateEach, disk, mem_upTo, current]
    constructor
    · rintro (h | h)
      · exact Or.inl (by omega)
      · exact Or.inr (Or.inr h)
    · rintro (h | h | h)
      · exact Or.inl (by omega)
      · omega
      · exact Or.inr h
  | succ m ih =>
    simp only [listed, rotateEach, Nat.add_sub_cancel] at ok ⊢
    split at ok
    · next full =>
      rw [if_pos full]
      have step : (log.removeOldest (rotatedFile (m + 1))).failed = false :=
        ok_before (rotateEach_failed maxFiles (listed m) m) ok
      obtain ⟨n, path, _, result⟩ := removeOldest_succeeds step
      obtain ⟨rfl, _, _⟩ := rotateName_eq path
      rw [result] at ok ⊢
      have same : min (m + 1 + 1) maxFiles = min (m + 1) maxFiles := by omega
      rw [same]
      exact ih above _ (fun x h => Nat.lt_of_succ_lt (high x h))
        (by simp only [disk, upTo_removed high]) ok
    · next room =>
      rw [if_neg room]
      have step : (log.moveUp (rotatedFile (m + 1))).failed = false :=
        ok_before (rotateEach_failed maxFiles (listed m) m) ok
      obtain ⟨n, path, _, named, result⟩ := moveUp_succeeds step
      obtain ⟨rfl, _, _⟩ := rotateName_eq path
      rw [result] at ok ⊢
      have bigger : ∀ x ∈ insert (m + 2) above, m < x := by
        intro x h
        rcases Finset.mem_insert.mp h with same | h
        · omega
        · exact Nat.lt_of_succ_lt (high x h)
      have least : min (m + 1) maxFiles = m + 1 := by omega
      have next : min (m + 1 + 1) maxFiles = m + 2 := by omega
      obtain ⟨_, diskAfter, filesAfter⟩ := ih (insert (m + 2) above) _ bigger
        (by simp only [disk, rotatedFile, ← upTo_moved high]) ok
      rw [least] at diskAfter filesAfter
      rw [next]
      refine ⟨named, ?_, ?_⟩
      · intro x
        rw [diskAfter x, Finset.mem_insert]
        have split : 2 ≤ x ∧ x ≤ m + 2 ↔ 2 ≤ x ∧ x ≤ m + 1 ∨ x = m + 2 := by omega
        rw [split, or_assoc]
      · rw [filesAfter]
        simp [listed, rotatedFile]

/-- What every rotation finds: the rotated files 1 to m, all listed, and beyond
    the last name the files of the start that no rotation can name. -/
structure Numbered (count m : Nat) (log : FileLog) : Prop where
  named : m < MAX_ROTATED_FILES
  disk : log.disk = upTo m (Finset.Icc MAX_ROTATED_FILES count)
  files : log.rotatedFiles = listed m

theorem startUp_numbered (count : Nat) : Numbered count (min count 9) (startUp count) := by
  refine ⟨by simp only [MAX_ROTATED_FILES]; omega, ?_, checkFiles_contiguous count⟩
  ext x
  simp only [startUp, mem_upTo, Finset.mem_insert, Finset.mem_Icc, current, MAX_ROTATED_FILES]
  omega

theorem rotation_numbered {maxFiles count m : Nat} {log : FileLog} (limited : 0 < maxFiles)
    (numbered : Numbered count m log) (ok : (rotation maxFiles log).failed = false) :
    Numbered count (min (m + 1) maxFiles) (rotation maxFiles log) := by
  obtain ⟨named, disk, files⟩ := numbered
  simp only [rotation, reopen, rotateFiles, files, listed_length] at ok ⊢
  obtain ⟨eachOk, moved⟩ := moveCurrent_succeeds ok
  obtain ⟨stillNamed, diskAfter, filesAfter⟩ := rotateEach_listed limited m
    (Finset.Icc MAX_ROTATED_FILES count) { log with rotatedFiles := [] }
    (fun x h => lt_of_lt_of_le named (Finset.mem_Icc.mp h).1) disk eachOk
  rw [moved]
  refine ⟨stillNamed, ?_, filesAfter⟩
  ext x
  simp only [Finset.mem_insert, Finset.mem_erase, diskAfter, mem_upTo, current]
  have first : 1 ≤ min (m + 1) maxFiles := by omega
  constructor
  · rintro (h | h | ⟨_, h | h | h⟩)
    · exact Or.inl (by omega)
    · exact Or.inl (by omega)
    · exact Or.inl (by omega)
    · exact Or.inl h.2
    · exact Or.inr h
  · rintro (h | h)
    · by_cases zero : x = 0
      · exact Or.inl zero
      · by_cases one : x = 1
        · exact Or.inr (Or.inl one)
        · exact Or.inr (Or.inr ⟨zero, Or.inr (Or.inl ⟨by omega, h⟩)⟩)
    · by_cases zero : x = 0
      · exact Or.inl zero
      · exact Or.inr (Or.inr ⟨zero, Or.inr (Or.inr h)⟩)

def numbers (maxFiles count : Nat) : Nat → Nat
  | 0 => min count 9
  | times + 1 => min (numbers maxFiles count times + 1) maxFiles

theorem rotations_numbered {maxFiles count : Nat} (limited : 0 < maxFiles) (times : Nat)
    (ok : (rotations maxFiles times (startUp count)).failed = false) :
    Numbered count (numbers maxFiles count times) (rotations maxFiles times (startUp count)) := by
  induction times with
  | zero => exact startUp_numbered count
  | succ times ih =>
    have earlier : (rotations maxFiles times (startUp count)).failed = false :=
      ok_before (rotation_failed maxFiles) ok
    exact rotation_numbered limited (ih earlier) ok

theorem numbers_eq {maxFiles count times : Nat} (rotated : 0 < times) :
    numbers maxFiles count times = min (min count 9 + times) maxFiles := by
  induction times with
  | zero => omega
  | succ times ih =>
    rcases Nat.eq_zero_or_pos times with rfl | before
    · rfl
    · rw [numbers, ih before]
      omega

theorem numbered_card {count m : Nat} {log : FileLog} (numbered : Numbered count m log) :
    log.disk.card = 1 + m + (count - 9) := by
  obtain ⟨named, disk, _⟩ := numbered
  have apart : Disjoint (Finset.range (m + 1)) (Finset.Icc MAX_ROTATED_FILES count) := by
    rw [Finset.disjoint_left]
    intro x low high
    have below := Finset.mem_range.mp low
    have above := (Finset.mem_Icc.mp high).1
    omega
  have all : log.disk = Finset.range (m + 1) ∪ Finset.Icc MAX_ROTATED_FILES count := by
    rw [disk]
    ext x
    simp only [mem_upTo, Finset.mem_union, Finset.mem_range, Nat.lt_succ_iff]
  rw [all, Finset.card_union_of_disjoint apart, Finset.card_range, Nat.card_Icc]
  simp only [MAX_ROTATED_FILES]
  omega

/-- The log keeps within its bound exactly as long as the files of the start and
    the rotations so far stay below it. -/
theorem files_bounded_iff (maxFiles count times : Nat) (limited : 0 < maxFiles)
    (succeeded : (rotations maxFiles times (startUp count)).failed = false) :
    (rotations maxFiles times (startUp count)).disk.card ≤ maxFiles ↔
      count + times < maxFiles := by
  have numbered := rotations_numbered limited times succeeded
  rw [numbered_card numbered]
  rcases Nat.eq_zero_or_pos times with rfl | rotated
  · simp only [numbers]
    omega
  · have named := numbered.named
    rw [numbers_eq rotated] at named ⊢
    simp only [MAX_ROTATED_FILES] at named
    omega

theorem files_bounded_iff_first : (rotations 5 2 (startUp 1)).disk.card ≤ 5 ↔ 1 + 2 < 5 :=
  files_bounded_iff 5 1 2 (by decide) (by decide +kernel)

/-- With a bound of five files, the first rotation of a log that has five keeps six. -/
theorem rotation_keeps_one_too_many :
    ∃ maxFiles count times, 0 < maxFiles ∧
      (rotations maxFiles times (startUp count)).failed = false ∧
      ¬ (rotations maxFiles times (startUp count)).disk.card ≤ maxFiles :=
  ⟨5, 4, 1, by decide, by decide +kernel, by decide +kernel⟩

end GreaseLog.FileRotation
