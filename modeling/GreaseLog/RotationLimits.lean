import GreaseLog.FileShift

/- How many rotations a file target survives. The queues hold ten files and only
   nine names exist; a limit below ten keeps the rotations within both. At the end,
   a rotation with queues and contents does what that of `FileRotation` does. -/
namespace GreaseLog.FileShift
open FileRotation

theorem noNull_add {calls : List Call} {c : Call} :
    NoNull (calls ++ [c]) ↔ NoNull calls ∧ c.namesNull = false := by
  constructor
  · intro all
    exact ⟨fun d member => all d (List.mem_append_left _ member),
      all c (List.mem_append_right _ (List.mem_singleton_self c))⟩
  · rintro ⟨before, last⟩ d member
    rcases List.mem_append.mp member with old | new
    · exact before d old
    · rw [List.mem_singleton.mp new]
      exact last

theorem rename_calls (fs : FileSystem) (path newPath : Option Nat) :
    ∃ replaced, (fs.rename path newPath).1.calls = fs.calls ++ [.rename path newPath replaced] := by
  unfold FileSystem.rename
  split
  · exact ⟨_, rfl⟩
  · exact ⟨none, rfl⟩

theorem path_none_iff (n : Nat) : (rotatedFile (n + 1)).path.isNone = false ↔ n + 1 < MAX_ROTATED_FILES := by
  simp only [rotatedFile, strRotateName]
  split
  · next named => exact iff_of_true rfl named.1
  · next unnamed => exact iff_of_false (by simp) (fun below => unnamed ⟨below, Nat.succ_pos n⟩)

/-- The names that the file numbered n needs in a rotation exist. -/
def Named (maxFiles n : Nat) : Prop :=
  if maxFiles ≠ 0 ∧ n + 1 > maxFiles then n < MAX_ROTATED_FILES else n + 1 < MAX_ROTATED_FILES

theorem shiftEach_noNull (maxFiles m : Nat) (fs : FileSystem) :
    NoNull (shiftEach maxFiles m (listed m) fs).1.calls ↔
      NoNull fs.calls ∧ ∀ n < m, Named maxFiles (n + 1) := by
  induction m generalizing fs with
  | zero => simp [shiftEach, listed]
  | succ m ih =>
    rw [listed, shiftEach, Nat.add_sub_cancel, Nat.forall_lt_succ_right, and_comm (b := Named _ _),
      ← and_assoc]
    split
    · next full =>
      have named : Named maxFiles (m + 1) ↔ m + 1 < MAX_ROTATED_FILES := by rw [Named, if_pos full]
      rw [ih, named, ← path_none_iff]
      exact and_congr_left' noNull_add
    · next free =>
      have named : Named maxFiles (m + 1) ↔ m + 1 + 1 < MAX_ROTATED_FILES := by rw [Named, if_neg free]
      obtain ⟨replaced, calls⟩ := rename_calls fs (rotatedFile (m + 1)).path (rotatedFile (m + 2)).path
      have names : ((rotatedFile (m + 1)).path.isNone || (rotatedFile (m + 2)).path.isNone) = false ↔
          m + 1 + 1 < MAX_ROTATED_FILES := by
        rw [Bool.or_eq_false_iff, path_none_iff, path_none_iff]
        omega
      rw [named, ← names]
      refine (ih _).trans (and_congr_left' ?_)
      rw [show (rotatedFile (m + 1)).num + 1 = m + 2 from rfl, calls]
      exact noNull_add

/-- The limits under which no rotation runs out of names. -/
def Limited (maxFiles : Nat) : Prop := 0 < maxFiles ∧ maxFiles < MAX_ROTATED_FILES

theorem named_limited {maxFiles m : Nat} (limited : Limited maxFiles) (few : m < MAX_ROTATED_FILES) :
    ∀ n < m, Named maxFiles (n + 1) := by
  intro n below
  obtain ⟨positive, small⟩ := limited
  unfold Named
  split <;> omega

theorem named_unlimited {maxFiles m : Nat} (unlimited : ¬ Limited maxFiles) :
    (∀ n < m, Named maxFiles (n + 1)) ↔ m + 1 < MAX_ROTATED_FILES := by
  have large : maxFiles = 0 ∨ MAX_ROTATED_FILES ≤ maxFiles := by
    unfold Limited at unlimited
    omega
  simp only [MAX_ROTATED_FILES] at large
  constructor
  · intro all
    by_contra many
    have last := all 8 (by simp only [MAX_ROTATED_FILES] at many; omega)
    unfold Named at last
    split at last
    · omega
    · exact absurd last (by decide)
  · intro few n below
    unfold Named
    simp only [MAX_ROTATED_FILES] at few ⊢
    split <;> omega

theorem path_not_current {n m : Nat} (path : (rotatedFile n).path = some m) : current ≠ m := by
  have named := rotateName_eq path
  simp only [current]
  omega

theorem unlink_current (fs : FileSystem) (n : Nat) :
    (fs.unlink (rotatedFile n).path).files current = fs.files current := by
  unfold FileSystem.unlink
  cases path : (rotatedFile n).path with
  | none => rfl
  | some m => exact Function.update_of_ne (path_not_current path) none fs.files

theorem rename_current (fs : FileSystem) (n m : Nat) :
    (fs.rename (rotatedFile n).path (rotatedFile m).path).1.files current = fs.files current := by
  unfold FileSystem.rename
  split
  · next k l contents path newPath there =>
    simp only
    rw [Function.update_of_ne (path_not_current newPath), Function.update_of_ne (path_not_current path)]
  · rfl

theorem shiftEach_current (maxFiles n m : Nat) (fs : FileSystem) :
    (shiftEach maxFiles n (listed m) fs).1.files current = fs.files current := by
  induction m generalizing n fs with
  | zero => rfl
  | succ m ih =>
    rw [listed, shiftEach]
    split
    · exact (ih _ _).trans (unlink_current fs (m + 1))
    · exact (ih _ _).trans (rename_current fs (m + 1) (m + 2))

def grown (maxFiles m : Nat) : Nat := if maxFiles = 0 then m + 1 else min (m + 1) maxFiles

theorem rotation_limits (opts : RotationOpts) {ft : FileTarget} {m : Nat} (lists : Lists ft (listed m))
    (contents : Contents) :
    (grown opts.maxFiles m ≤ MAX_ROTATED_FILES → ∃ ft', rotateFiles opts (ft.write contents) = some ft' ∧
      Lists ft' (listed (grown opts.maxFiles m)) ∧
      (NoNull ft'.fs.calls ↔ NoNull ft.fs.calls ∧ ∀ n < m, Named opts.maxFiles (n + 1))) ∧
    (MAX_ROTATED_FILES < grown opts.maxFiles m → rotateFiles opts (ft.write contents) = none) := by
  have here : Lists (ft.write contents) (listed m) := ⟨lists.room, lists.holds⟩
  have noNull := shiftEach_noNull opts.maxFiles m (ft.write contents).fs
  have there := shiftEach_current opts.maxFiles m m (ft.write contents).fs
  have moved := shiftEach_moved opts.maxFiles m (ft.write contents).fs
  have short := shiftEach_length opts.maxFiles m (listed m) (ft.write contents).fs
  have few := lists.short
  generalize result : shiftEach opts.maxFiles m (listed m) (ft.write contents).fs = r
    at noNull there moved short
  obtain ⟨fs, files⟩ := r
  rw [write_current] at there
  rw [listed_length] at short few
  simp only at short
  have count : files.length + 1 = grown opts.maxFiles m := by
    have lengths := congrArg List.length moved
    rw [listed_length, List.length_append, List.length_singleton] at lengths
    exact lengths
  obtain ⟨ends, hangs⟩ := rotateFiles_eq here (listed_length m) result there
  constructor
  · intro room
    obtain ⟨ft', rotated, fs', _, lists'⟩ := ends (by omega)
    rw [moved] at lists'
    refine ⟨ft', rotated, lists', ?_⟩
    obtain ⟨replaced, calls⟩ := rename_calls fs (some current) (some 1)
    rw [fs', calls, noNull_add]
    exact (and_iff_left rfl).trans noNull
  · intro full
    exact hangs (by omega)

/-- Every call returned, and none to the file system was made with a null path. -/
def Unharmed (result : Option FileTarget) : Prop := ∃ ft ∈ result, NoNull ft.fs.calls

instance (result : Option FileTarget) : Decidable (Unharmed result) :=
  inferInstanceAs (Decidable (∃ ft ∈ result, ∀ c ∈ ft.fs.calls, c.namesNull = false))

theorem grown_limited {maxFiles m : Nat} (limited : Limited maxFiles) : grown maxFiles m < MAX_ROTATED_FILES := by
  have positive := limited.1
  have small := limited.2
  rw [grown, if_neg (by omega)]
  omega

theorem grown_unlimited {maxFiles m : Nat} (unlimited : ¬ Limited maxFiles) (few : m < MAX_ROTATED_FILES) :
    grown maxFiles m = m + 1 := by
  unfold Limited at unlimited
  unfold grown
  split <;> omega

theorem rotations_limits {opts : RotationOpts} (written : List Contents) {ft : FileTarget} {m : Nat}
    (lists : Lists ft (listed m)) (small : Limited opts.maxFiles → m < MAX_ROTATED_FILES) :
    Unharmed (rotations opts written ft) ↔
      NoNull ft.fs.calls ∧
        (written = [] ∨ Limited opts.maxFiles ∨ m + written.length < MAX_ROTATED_FILES) := by
  induction written generalizing ft m with
  | nil => simp [rotations, Unharmed]
  | cons contents rest ih =>
    obtain ⟨ends, hangs⟩ := rotation_limits opts lists contents
    rw [rotations, List.length_cons]
    by_cases limited : Limited opts.maxFiles
    · have below := grown_limited (m := m) limited
      obtain ⟨ft', rotated, lists', noNull⟩ := ends (Nat.le_of_lt below)
      have named := named_limited limited (small limited)
      rw [rotated, Option.bind_some, ih lists' (fun _ => below), noNull, and_iff_left named]
      simp [limited]
    · by_cases few : m + 1 < MAX_ROTATED_FILES
      · have grows := grown_unlimited limited (Nat.lt_of_succ_lt few)
        rw [grows] at ends
        obtain ⟨ft', rotated, lists', noNull⟩ := ends (Nat.le_of_lt few)
        rw [rotated, Option.bind_some, ih lists' (fun h => absurd h limited), noNull,
          named_unlimited limited]
        rw [show m + 1 + rest.length = m + (rest.length + 1) by omega, and_iff_left few]
        cases rest with
        | nil => simp [limited, few]
        | cons second rest => simp [limited]
      · have never : ¬ (NoNull ft.fs.calls ∧ (contents :: rest = [] ∨ Limited opts.maxFiles ∨
            m + (rest.length + 1) < MAX_ROTATED_FILES)) := by
          rintro ⟨_, none | h | h⟩
          · cases none
          · exact limited h
          · omega
        refine iff_of_false ?_ never
        by_cases room : grown opts.maxFiles m ≤ MAX_ROTATED_FILES
        · obtain ⟨ft', rotated, lists', noNull⟩ := ends room
          rw [rotated, Option.bind_some, ih lists' (fun h => absurd h limited), noNull,
            named_unlimited limited]
          exact fun h => few h.1.2
        · rw [hangs (Nat.lt_of_not_le room)]
          simp [Unharmed]

/-- Rotations neither block nor name a missing path exactly if a name is free at
    the start and either the limit is below the names or the names suffice. -/
theorem rotations_unharmed_iff (opts : RotationOpts) (files : Nat → Option Contents)
    (written : List Contents) :
    Unharmed (startAndRotate opts files written) ↔
      found files + 1 < MAX_ROTATED_FILES ∧
        (0 < opts.maxFiles ∧ opts.maxFiles < MAX_ROTATED_FILES ∨
          found files + written.length < MAX_ROTATED_FILES) := by
  obtain ⟨ft, needsRotation, checked, _, lists, _, noNull⟩ := checkFiles_eq opts files
  have few : found files < MAX_ROTATED_FILES := Nat.lt_of_le_pred (by decide) (Nat.findGreatest_le _)
  rw [startAndRotate, checked, Option.bind_some, rotations_limits written lists (fun _ => few), noNull]
  refine and_congr_right fun free => ?_
  constructor
  · rintro (none | limited | names)
    · subst none
      exact Or.inr few
    · exact Or.inl limited
    · exact Or.inr names
  · exact Or.inr

/-- Without a limit, the tenth rotation of a new log renames to a null path, and
    the eleventh waits for ever for room in the queue. -/
theorem unlimited_rotations_hang :
    ¬ Unharmed (startAndRotate ⟨0, 0, 0⟩ (onDisk none []) (List.replicate 10 [])) ∧
      (startAndRotate ⟨0, 0, 0⟩ (onDisk none []) (List.replicate 11 [])).isSome = false := by
  decide +kernel

def Present (disk : Disk) (files : Nat → Option Contents) : Prop :=
  ∀ i, i ∈ disk ↔ (files i).isSome = true

theorem Present.removed {disk : Disk} {files : Nat → Option Contents} (present : Present disk files)
    (n : Nat) : Present (disk.erase n) (Function.update files n none) := by
  intro i
  rw [Finset.mem_erase, Function.update_apply, present i]
  by_cases here : i = n
  · simp [here]
  · simp [here]

theorem Present.added {disk : Disk} {files : Nat → Option Contents} (present : Present disk files)
    (n : Nat) (contents : Contents) :
    Present (insert n disk) (Function.update files n (some contents)) := by
  intro i
  rw [Finset.mem_insert, Function.update_apply, present i]
  by_cases here : i = n
  · simp [here]
  · simp [here]

theorem unlink_present {log : FileLog} {fs : FileSystem} (present : Present log.disk fs.files)
    (f : RotatedFile) :
    Present (log.removeOldest f).disk (fs.unlink f.path).files ∧
      (log.removeOldest f).rotatedFiles = log.rotatedFiles := by
  unfold FileLog.removeOldest FileSystem.unlink unlink
  cases f.path with
  | none => exact ⟨present, rfl⟩
  | some n =>
    by_cases there : n ∈ log.disk
    · simp only [there, ↓reduceIte]
      exact ⟨present.removed n, trivial⟩
    · have missing : fs.files n = none := by simpa [present n] using there
      simp only [there, ↓reduceIte]
      rw [← missing, Function.update_eq_self]
      exact ⟨present, trivial⟩

theorem rename_present {disk : Disk} {fs : FileSystem} (present : Present disk fs.files)
    (path newPath : Option Nat) :
    (∃ disk', rename disk path newPath = some disk' ∧ (fs.rename path newPath).2 = true ∧
        Present disk' (fs.rename path newPath).1.files) ∨
      (rename disk path newPath = none ∧ (fs.rename path newPath).2 = false ∧
        (fs.rename path newPath).1.files = fs.files) := by
  unfold rename FileSystem.rename
  cases path with
  | none => exact Or.inr ⟨rfl, rfl, rfl⟩
  | some n =>
    cases newPath with
    | none => exact Or.inr ⟨rfl, rfl, rfl⟩
    | some m =>
      cases there : fs.files n with
      | none =>
        have absent : n ∉ disk := by simp [present n, there]
        simp only [FileSystem.at?, Option.bind_some, there, absent, ↓reduceIte]
        exact Or.inr ⟨trivial, trivial, trivial⟩
      | some contents =>
        have member : n ∈ disk := by simp [present n, there]
        simp only [FileSystem.at?, Option.bind_some, there, member, ↓reduceIte]
        exact Or.inl ⟨_, rfl, trivial, (present.removed n).added m contents⟩

theorem moveUp_present {log : FileLog} {fs : FileSystem} (present : Present log.disk fs.files)
    (f : RotatedFile) :
    Present (log.moveUp f).disk (fs.rename f.path (rotatedFile (f.num + 1)).path).1.files ∧
      (log.moveUp f).rotatedFiles = log.rotatedFiles ++ [rotatedFile (f.num + 1)] := by
  unfold FileLog.moveUp
  rcases rename_present present f.path (rotatedFile (f.num + 1)).path with
    ⟨disk, renamed, _, after⟩ | ⟨failed, _, same⟩
  · simp only [renamed]
    exact ⟨after, trivial⟩
  · simp only [failed, same]
    exact ⟨present, trivial⟩

theorem rotateEach_present (maxFiles n : Nat) (files : List RotatedFile) {log : FileLog} {fs : FileSystem}
    (present : Present log.disk fs.files) :
    Present (rotateEach maxFiles n files log).disk (shiftEach maxFiles n files fs).1.files ∧
      (rotateEach maxFiles n files log).rotatedFiles =
        log.rotatedFiles ++ (shiftEach maxFiles n files fs).2 := by
  induction files generalizing n log fs with
  | nil => exact ⟨present, (List.append_nil _).symm⟩
  | cons f rest ih =>
    rw [rotateEach, shiftEach]
    split
    · obtain ⟨present', same⟩ := unlink_present present f
      rw [← same]
      exact ih (n - 1) present'
    · obtain ⟨present', longer⟩ := moveUp_present present f
      obtain ⟨last, all⟩ := ih (n - 1) present'
      refine ⟨last, all.trans ?_⟩
      rw [longer, List.append_assoc]
      rfl

theorem rotated_eq {opts : RotationOpts} {ft ft' : FileTarget} {m : Nat} {contents : Contents}
    (lists : Lists ft (listed m)) (there : ft.fs.files current = some contents)
    (rotated : rotateFiles opts ft = some ft') :
    ∃ fs files, shiftEach opts.maxFiles m (listed m) ft.fs = (fs, files) ∧
      fs.files current = some contents ∧ ft'.fs = (fs.rename (some current) (some 1)).1 ∧
      ft'.currentSize = 0 ∧ Lists ft' (files ++ [rotatedFile 1]) := by
  have short := shiftEach_length opts.maxFiles m (listed m) ft.fs
  have left := (shiftEach_current opts.maxFiles m m ft.fs).trans there
  have few := lists.short
  generalize result : shiftEach opts.maxFiles m (listed m) ft.fs = r at short left
  obtain ⟨fs, files⟩ := r
  obtain ⟨ends, hangs⟩ := rotateFiles_eq lists (listed_length m) result left
  have room : files.length < MAX_ROTATED_FILES := by
    by_contra full
    rw [hangs (by simp only at short; omega)] at rotated
    cases rotated
  obtain ⟨other, ended, fs', size, lists'⟩ := ends room
  obtain rfl : other = ft' := Option.some.inj (ended.symm.trans rotated)
  exact ⟨fs, files, rfl, left, fs', size, lists'⟩

/-- A rotation that returns does to the queue and to the set of files what the
    rotation of the lists does. -/
theorem rotateFiles_refines {opts : RotationOpts} {log : FileLog} {ft ft' : FileTarget} {m : Nat}
    (present : Present log.disk ft.fs.files) (same : log.rotatedFiles = listed m)
    (lists : Lists ft (listed m)) (there : current ∈ log.disk) (rotated : rotateFiles opts ft = some ft') :
    Present (FileRotation.rotateFiles opts.maxFiles log).disk ft'.fs.files ∧
      Lists ft' (FileRotation.rotateFiles opts.maxFiles log).rotatedFiles := by
  obtain ⟨contents, here⟩ := Option.isSome_iff_exists.mp ((present current).mp there)
  have empty : Present { log with rotatedFiles := [] }.disk ft.fs.files := present
  have each := rotateEach_present opts.maxFiles m (listed m) empty
  obtain ⟨fs, files, result, left, fs', _, lists'⟩ := rotated_eq lists here rotated
  rw [result] at each
  obtain ⟨present', listed'⟩ := each
  unfold FileRotation.rotateFiles FileLog.moveCurrent
  rw [same, listed_length]
  rcases rename_present present' (some current) (some 1) with ⟨disk, renamed, _, after⟩ | ⟨_, failed, _⟩
  · have path : (rotatedFile 1).path = some 1 := rfl
    simp only [path, renamed, listed', List.nil_append, fs']
    exact ⟨after, lists'⟩
  · rw [FileSystem.rename_there left] at failed
    cases failed

end GreaseLog.FileShift
