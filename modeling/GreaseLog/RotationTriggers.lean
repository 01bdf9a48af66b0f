import GreaseLog.FileWrites

/- What makes a file target rotate: how addTarget reads the rotate options
   (logger.cc), where 0 is no setting, and the tests made on them at the start and
   at the end of each write (logger.h). -/
namespace GreaseLog
open FileShift
open FileRotation (current MAX_ROTATED_FILES RotatedFile rotatedFile)

/-- The properties of the rotate object; none is one that is not of the tested type. -/
structure JsRotate where
  maxFiles : Option UInt32 := none
  maxFileSize : Option UInt32 := none
  maxTotalSize : Option UInt32 := none
  rotateOnStart : Option Bool := none
  deriving DecidableEq

namespace JsRotate

/-- Any of them enables rotation, a rotate_on_start of false as well. -/
def enabled (js : JsRotate) : Bool :=
  js.maxFiles.isSome || js.maxFileSize.isSome || js.maxTotalSize.isSome || js.rotateOnStart.isSome

def opts (js : JsRotate) : RotationOpts where
  maxFiles := (js.maxFiles.getD 0).toNat
  maxTotalSize := (js.maxTotalSize.getD 0).toNat
  maxFileSize := (js.maxFileSize.getD 0).toNat

end JsRotate

namespace FileWrites

def ended (s : FileWrites) : Action → Option (FileWrites × Option Nat)
  | .writeCb i =>
    if i < s.inFlight.length then some ({ s with inFlight := s.inFlight.eraseIdx i }, none) else none
  | .flushSync len => some ({ s with submitted := s.submitted + len }, none)
  | .overflowEnd (some got) =>
    s.overflow.map fun need =>
      ({ s with
          submitted := s.submitted + need
          dropped := s.dropped + (need - got)
          overflow := none }, some got)
  | _ => none

def Rotating (s : FileWrites) (a : Action) : Prop :=
  ∃ s' sz, s.ended a = some (s', sz) ∧ s'.Rotates sz

/-- If the action rotates, a limit is set and current_size is past it. -/
def ByLimit (s : FileWrites) (a : Action) : Prop :=
  ∀ s' sz, s.ended a = some (s', sz) → s'.Rotates sz →
    s.maxFileSize ≠ 0 ∧ s'.sizeAfter sz > s.maxFileSize

/-- A limit is set, or rotation is off, or the action does not end the last write
    of a file that is not empty. -/
def Guarded (s : FileWrites) (a : Action) : Prop :=
  s.maxFileSize ≠ 0 ∨ s.enabled = false ∨
    ∀ s' sz, s.ended a = some (s', sz) → 2 ≤ s'.submittedWrites ∨ s'.sizeAfter sz = 0

variable {s : FileWrites}

theorem ended_spec {a : Action} {s' : FileWrites} {sz : Option Nat}
    (ends : s.ended a = some (s', sz)) :
    s.apply a = s'.checkAndMaybeRotate sz ∧
      s'.enabled = s.enabled ∧ s'.maxFileSize = s.maxFileSize ∧ s'.openedSize = s.openedSize := by
  cases a with
  | flush len => cases ends
  | writeCb i =>
    simp only [ended] at ends
    split at ends
    · next inside =>
      obtain ⟨rfl, rfl⟩ := Prod.mk.inj (Option.some.inj ends)
      exact ⟨by simp [apply, inside], rfl, rfl, rfl⟩
    · cases ends
  | flushSync len =>
    obtain ⟨rfl, rfl⟩ := Prod.mk.inj (Option.some.inj ends)
    exact ⟨rfl, rfl, rfl, rfl⟩
  | overflowStart need => cases ends
  | overflowEnd got =>
    cases got with
    | none => cases ends
    | some got =>
      obtain ⟨need, given, same⟩ := Option.map_eq_some_iff.mp ends
      obtain ⟨rfl, rfl⟩ := Prod.mk.inj same
      exact ⟨by simp [apply, given], rfl, rfl, rfl⟩

theorem not_ended {a : Action} (runs : s.ended a = none) :
    (s.apply a).openedSize = s.openedSize ∧
      (s.apply a).enabled = s.enabled ∧ (s.apply a).maxFileSize = s.maxFileSize := by
  cases a with
  | flush len => exact ⟨rfl, rfl, rfl⟩
  | writeCb i =>
    simp only [ended] at runs
    split at runs
    · cases runs
    · next outside =>
      rw [apply, if_neg outside]
      exact ⟨rfl, rfl, rfl⟩
  | flushSync len => cases runs
  | overflowStart need =>
    rw [apply]
    split
    · exact ⟨rfl, rfl, rfl⟩
    · exact ⟨rfl, rfl, rfl⟩
  | overflowEnd got =>
    cases given : s.overflow with
    | none => simp [apply, given]
    | some need =>
      cases got with
      | none => simp [apply, given]
      | some got => simp [ended, given] at runs

theorem byLimit_iff (s : FileWrites) (a : Action) : s.ByLimit a ↔ s.Guarded a := by
  constructor
  · intro byLimit
    by_cases set : s.maxFileSize = 0
    · by_cases on : s.enabled = true
      · refine Or.inr (Or.inr ?_)
        intro s' sz ends
        by_contra last
        obtain ⟨busy, size⟩ := not_or.mp last
        obtain ⟨_, enabled, limit, _⟩ := ended_spec ends
        have rotates : s'.Rotates sz := by
          refine ⟨by omega, enabled.trans on, ?_⟩
          rw [limit, set]
          exact Nat.pos_of_ne_zero size
        exact (byLimit s' sz ends rotates).1 set
      · exact Or.inr (Or.inl (Bool.eq_false_of_not_eq_true on))
    · exact Or.inl set
  · intro guarded s' sz ends rotates
    obtain ⟨_, enabled, limit, _⟩ := ended_spec ends
    obtain ⟨last, on, past⟩ := rotates
    rw [limit] at past
    rcases guarded with set | off | never
    · exact ⟨set, past⟩
    · rw [enabled, off] at on
      cases on
    · rcases never s' sz ends with busy | empty
      · omega
      · omega

theorem checkAndMaybeRotate_config (s : FileWrites) (sz : Option Nat) :
    (s.checkAndMaybeRotate sz).enabled = s.enabled ∧
      (s.checkAndMaybeRotate sz).maxFileSize = s.maxFileSize := by
  rw [checkAndMaybeRotate]
  split
  · exact ⟨rfl, rfl⟩
  · exact ⟨rfl, rfl⟩

theorem apply_config (s : FileWrites) (a : Action) :
    (s.apply a).enabled = s.enabled ∧ (s.apply a).maxFileSize = s.maxFileSize := by
  cases ends : s.ended a with
  | some call =>
    obtain ⟨result, enabled, limit, _⟩ := ended_spec ends
    obtain ⟨enabled', limit'⟩ := checkAndMaybeRotate_config call.1 call.2
    rw [result]
    exact ⟨enabled'.trans enabled, limit'.trans limit⟩
  | none => exact (not_ended ends).2

theorem limited_guarded (limited : s.maxFileSize ≠ 0 ∨ s.enabled = false) (actions : List Action) :
    Runs.Checked Guarded apply s actions := by
  induction actions generalizing s with
  | nil => trivial
  | cons a rest ih =>
    obtain ⟨enabled, limit⟩ := apply_config s a
    constructor
    · rcases limited with set | off
      · exact Or.inl set
      · exact Or.inr (Or.inl off)
    · apply ih
      rw [enabled, limit]
      exact limited

theorem byLimit_eq : ByLimit = Guarded := by
  funext s a
  exact propext (byLimit_iff s a)

theorem unlimited_rotates (truncates : Bool) :
    ¬ Runs.Checked ByLimit apply (start true truncates 0 none) [.flush 1, .writeCb 0] := by
  rintro ⟨_, second, _⟩
  have set := second _ _ rfl (by cases truncates <;> exact ⟨by decide, rfl, by decide⟩)
  exact set.1 rfl

/-- A configuration rotates by its limit in every run if and only if it has one. -/
theorem always_byLimit_iff (enabled truncates : Bool) (maxFileSize : Nat) :
    (∀ size actions, Runs.Checked ByLimit apply (start enabled truncates maxFileSize size) actions) ↔
      maxFileSize ≠ 0 ∨ enabled = false := by
  constructor
  · intro always
    by_contra unlimited
    obtain ⟨limit, on⟩ := not_or.mp unlimited
    rw [not_not.mp limit, Bool.eq_true_of_not_eq_false on] at always
    exact unlimited_rotates truncates (always none _)
  · intro limited size actions
    rw [byLimit_eq]
    exact limited_guarded (s := start enabled truncates maxFileSize size) limited actions

end FileWrites

namespace FileShift

/-! The sizes that check_files adds up. -/

def sizeOf (files : Nat → Option Contents) (n : Nat) : Nat := ((files n).map List.length).getD 0

def addSize64 (sum size : Nat) : Nat := (sum + size) % 2 ^ 64

def allFilesSize (files : Nat → Option Contents) : Nat :=
  ((List.range' 1 (found files)).map (sizeOf files)).foldl addSize64 (sizeOf files current)

def totalFound (files : Nat → Option Contents) : Nat :=
  sizeOf files current + ((List.range' 1 (found files)).map (sizeOf files)).sum

theorem addSize64_le (sizes : List Nat) (sum : Nat) : sizes.foldl addSize64 sum ≤ sum + sizes.sum := by
  induction sizes generalizing sum with
  | nil => exact Nat.le_refl _
  | cons size rest ih =>
    have first : addSize64 sum size ≤ sum + size := Nat.mod_le _ _
    have others := ih (addSize64 sum size)
    rw [List.foldl_cons, List.sum_cons]
    omega

theorem allFilesSize_le (files : Nat → Option Contents) : allFilesSize files ≤ totalFound files :=
  addSize64_le _ _

theorem le_found {files : Nat → Option Contents} {n : Nat}
    (all : ∀ i < n, (files (i + 1)).isSome = true) (named : n < MAX_ROTATED_FILES) :
    n ≤ found files :=
  Nat.le_findGreatest (Nat.le_sub_one_of_lt named) all

theorem findFiles_size {files : Nat → Option Contents} (fuel : Nat) {k : Nat} (sum : Nat)
    {rotatedFiles rotatedFiles' : SafeCircular RotatedFile} {calls : List Call} {fs : FileSystem}
    {size : Nat} (named : k < MAX_ROTATED_FILES) (enough : MAX_ROTATED_FILES ≤ k + fuel)
    (all : ∀ i < k, (files (i + 1)).isSome = true)
    (search : findFiles fuel (k + 1) rotatedFiles sum ⟨files, calls⟩ = some (rotatedFiles', size, fs)) :
    size = ((List.range' (k + 1) (found files - k)).map (sizeOf files)).foldl addSize64 sum := by
  induction fuel generalizing k sum rotatedFiles calls with
  | zero => omega
  | succ fuel ih =>
    have done : found files = k → size = sum →
        size = ((List.range' (k + 1) (found files - k)).map (sizeOf files)).foldl addSize64 sum := by
      intro count same
      rw [count, Nat.sub_self, same]
      rfl
    rw [findFiles] at search
    by_cases last : k + 1 = MAX_ROTATED_FILES
    · have noPath : (rotatedFile (k + 1)).path = none := by rw [last]; rfl
      simp only [FileSystem.stat, FileSystem.at?, noPath, Option.bind_none, Option.map_none] at search
      have same := (Prod.mk.inj (Prod.mk.inj (Option.some.inj search)).2).1
      exact done (found_eq named all (Or.inl last)) same.symm
    · have path : (rotatedFile (k + 1)).path = some (k + 1) :=
        rotatedFile_path (Nat.succ_pos k) (by omega)
      cases there : files (k + 1) with
      | none =>
        simp only [FileSystem.stat, FileSystem.at?, path, Option.bind_some, there, Option.map_none]
          at search
        have same := (Prod.mk.inj (Prod.mk.inj (Option.some.inj search)).2).1
        exact done (found_eq named all (Or.inr there)) same.symm
      | some contents =>
        have more : ∀ i < k + 1, (files (i + 1)).isSome = true := by
          intro i below
          rcases Nat.lt_succ_iff_lt_or_eq.mp below with before | rfl
          · exact all i before
          · rw [there]
            rfl
        simp only [FileSystem.stat, FileSystem.at?, path, Option.bind_some, there, Option.map_some]
          at search
        split at search
        · cases search
        · have rest := ih _ (by omega) (by omega) more search
          have count : found files - k = (found files - (k + 1)) + 1 := by
            have := le_found more (by omega)
            omega
          rw [rest, count, List.range'_succ, List.map_cons, List.foldl_cons]
          simp [sizeOf, there, addSize64]

def PastLimit (opts : RotationOpts) (files : Nat → Option Contents) : Prop :=
  (opts.maxFileSize ≠ 0 ∧ opts.maxFileSize < sizeOf files current) ∨
    (opts.maxTotalSize ≠ 0 ∧ opts.maxTotalSize < totalFound files)

theorem checkFiles_asks {opts : RotationOpts} {files : Nat → Option Contents} {ft : FileTarget}
    {asks : Bool} (checked : checkFiles opts (opened files) = some (ft, asks)) :
    asks = true ↔ (opts.maxFileSize ≠ 0 ∧ opts.maxFileSize < sizeOf files current) ∨
      allFilesSize files > opts.maxTotalSize := by
  have start : (opened files).fs.stat (some current) =
      (⟨files, [.stat (some current)]⟩, (files current).map List.length) := rfl
  simp only [checkFiles, Option.map_eq_some_iff, start] at checked
  obtain ⟨⟨rotatedFiles, size, fs⟩, search, same⟩ := checked
  have total : size = allFilesSize files :=
    findFiles_size MAX_ROTATED_FILES _ (show 0 < MAX_ROTATED_FILES by decide) (Nat.le_add_left _ _)
      (fun i below => absurd below (Nat.not_lt_zero i)) search
  rw [← (Prod.mk.inj same).2, total]
  cases there : files current <;> simp [sizeOf, there]

/-- A total limit is set, or all files are empty, or the current one is past a limit
    of its own. -/
def StartGuarded (opts : RotationOpts) (files : Nat → Option Contents) : Prop :=
  opts.maxTotalSize ≠ 0 ∨ allFilesSize files = 0 ∨
    (opts.maxFileSize ≠ 0 ∧ opts.maxFileSize < sizeOf files current)

theorem checkFiles_byLimit_iff {opts : RotationOpts} {files : Nat → Option Contents} {ft : FileTarget}
    {asks : Bool} (checked : checkFiles opts (opened files) = some (ft, asks)) :
    (asks = true → PastLimit opts files) ↔ StartGuarded opts files := by
  have total := allFilesSize_le files
  rw [checkFiles_asks checked]
  constructor
  · intro byLimit
    by_cases limited : opts.maxTotalSize = 0
    · by_cases empty : allFilesSize files = 0
      · exact Or.inr (Or.inl empty)
      · rcases byLimit (Or.inr (by omega)) with file | ⟨set, _⟩
        · exact Or.inr (Or.inr file)
        · exact absurd limited set
    · exact Or.inl limited
  · rintro guarded (file | all)
    · exact Or.inl file
    · rcases guarded with set | empty | file
      · exact Or.inr ⟨set, by omega⟩
      · omega
      · exact Or.inl file

end FileShift

/-- The rotations of a target made with these options are by a limit that is set
    exactly in the runs, and at the starts, that are guarded. -/
theorem rotations_byLimit_iff (js : JsRotate) :
    (∀ truncates size actions,
      let start := FileWrites.start js.enabled truncates js.opts.maxFileSize size
      Runs.Checked FileWrites.ByLimit FileWrites.apply start actions ↔
        Runs.Checked FileWrites.Guarded FileWrites.apply start actions) ∧
    (∀ truncates, (∀ size actions, Runs.Checked FileWrites.ByLimit FileWrites.apply
        (FileWrites.start js.enabled truncates js.opts.maxFileSize size) actions) ↔
      js.opts.maxFileSize ≠ 0 ∨ js.enabled = false) ∧
    ∀ files, ∃ ft asks, checkFiles js.opts (opened files) = some (ft, asks) ∧
      ((asks = true → PastLimit js.opts files) ↔ StartGuarded js.opts files) := by
  refine ⟨?_, ?_, ?_⟩
  · intro truncates size actions
    rw [FileWrites.byLimit_eq]
  · intro truncates
    exact FileWrites.always_byLimit_iff js.enabled truncates js.opts.maxFileSize
  · intro files
    obtain ⟨ft, asks, checked, _⟩ := checkFiles_eq js.opts files
    exact ⟨ft, asks, checked, checkFiles_byLimit_iff checked⟩

/-- rotate: { max_files: 5 }: the first write rotates. -/
theorem max_files_rotates :
    ¬ ∀ (js : JsRotate) truncates size actions, Runs.Checked FileWrites.ByLimit FileWrites.apply
      (FileWrites.start js.enabled truncates js.opts.maxFileSize size) actions := by
  intro always
  exact FileWrites.unlimited_rotates false (always { maxFiles := some 5 } false none _)

end GreaseLog
