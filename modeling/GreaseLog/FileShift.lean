import GreaseLog.FileRotation
import GreaseLog.SafeCircular

/- The contents of a rotated log's files. The names are those of `FileRotation`;
   the lists of files are the circular queues of the source, and every call to
   the file system is kept in order. `none` is a thread that waits for ever. -/
namespace GreaseLog.FileShift
open FileRotation

abbrev Contents := List UInt8

/-- What a call names, and the contents it did away with. -/
inductive Call where
  | stat (path : Option Nat)
  | unlink (path : Option Nat) (removed : Option Contents)
  | rename (path newPath : Option Nat) (replaced : Option Contents)
  deriving DecidableEq, Repr

namespace Call

def namesNull : Call → Bool
  | stat path => path.isNone
  | unlink path _ => path.isNone
  | rename path newPath _ => path.isNone || newPath.isNone

def removed : Call → Option Contents
  | unlink _ contents => contents
  | _ => none

def replaced : Call → Option Contents
  | rename _ _ contents => contents
  | _ => none

end Call

structure FileSystem where
  files : Nat → Option Contents
  calls : List Call

namespace FileSystem

def at? (fs : FileSystem) (path : Option Nat) : Option Contents := path.bind fs.files

def stat (fs : FileSystem) (path : Option Nat) : FileSystem × Option Nat :=
  ({ fs with calls := fs.calls ++ [.stat path] }, (fs.at? path).map List.length)

def unlink (fs : FileSystem) (path : Option Nat) : FileSystem :=
  { files := match path with
      | some n => Function.update fs.files n none
      | none => fs.files
    calls := fs.calls ++ [.unlink path (fs.at? path)] }

theorem unlink_there {fs : FileSystem} {n : Nat} {contents : Contents} (there : fs.files n = some contents) :
    fs.unlink (some n) =
      ⟨Function.update fs.files n none, fs.calls ++ [.unlink (some n) (some contents)]⟩ := by
  simp [unlink, at?, there]

def rename (fs : FileSystem) (path newPath : Option Nat) : FileSystem × Bool :=
  match path, newPath, fs.at? path with
  | some n, some m, some contents =>
    ({ files := Function.update (Function.update fs.files n none) m (some contents)
       calls := fs.calls ++ [.rename path newPath (fs.files m)] }, true)
  | _, _, _ => ({ fs with calls := fs.calls ++ [.rename path newPath none] }, false)

theorem rename_there {fs : FileSystem} {n : Nat} {contents : Contents} (there : fs.files n = some contents)
    (m : Nat) :
    fs.rename (some n) (some m) =
      (⟨Function.update (Function.update fs.files n none) m (some contents),
        fs.calls ++ [.rename (some n) (some m) (fs.files m)]⟩, true) := by
  simp [rename, at?, there]

end FileSystem

structure RotationOpts where
  maxFiles : Nat
  maxTotalSize : Nat
  maxFileSize : Nat
  deriving DecidableEq, Repr

structure FileTarget where
  fs : FileSystem
  rotatedFiles : SafeCircular RotatedFile
  currentSize : Nat
  allFilesSize : Nat

def blankFile : RotatedFile := ⟨none, 0⟩

def opened (files : Nat → Option Contents) : FileTarget :=
  { fs := ⟨files, []⟩
    rotatedFiles := SafeCircular.new MAX_ROTATED_FILES blankFile
    currentSize := 0
    allFilesSize := 0 }

/-- The loop of `rotate_files`: what it leaves in `rotatedFiles`, what it puts into `tempFiles`. -/
def rotateLoop (maxFiles : Nat) : Nat → Nat → SafeCircular RotatedFile → SafeCircular RotatedFile →
    FileSystem → Option (SafeCircular RotatedFile × SafeCircular RotatedFile × FileSystem)
  | 0, _, _, _, _ => none
  | fuel + 1, n, rotatedFiles, tempFiles, fs =>
    match rotatedFiles.removeMv with
    | none => some (rotatedFiles, tempFiles, fs)
    | some (f, rotatedFiles) =>
      if maxFiles ≠ 0 ∧ n + 1 > maxFiles then
        rotateLoop maxFiles fuel (n - 1) rotatedFiles tempFiles (fs.unlink f.path)
      else
        let newFile := rotatedFile (f.num + 1)
        match tempFiles.addMv newFile with
        | none => none
        | some tempFiles =>
          rotateLoop maxFiles fuel (n - 1) rotatedFiles tempFiles (fs.rename f.path newFile.path).1

def rotateFiles (opts : RotationOpts) (ft : FileTarget) : Option FileTarget :=
  let n := ft.rotatedFiles.remain
  match rotateLoop opts.maxFiles (n + 1) n ft.rotatedFiles
      (SafeCircular.new MAX_ROTATED_FILES blankFile) ft.fs with
  | none => none
  | some (rotatedFiles, tempFiles, fs) =>
    let newFile := rotatedFile 1
    let (fs, renamed) := fs.rename (some current) newFile.path
    let filled := if renamed then tempFiles.addMv newFile else some tempFiles
    filled.map fun tempFiles =>
      { ft with fs := fs, rotatedFiles := (rotatedFiles.transferFrom tempFiles).1, currentSize := 0 }

/-- The search of `check_files`, which adds up the sizes in 64 bits. -/
def findFiles : Nat → Nat → SafeCircular RotatedFile → Nat → FileSystem →
    Option (SafeCircular RotatedFile × Nat × FileSystem)
  | 0, _, _, _, _ => none
  | fuel + 1, n, rotatedFiles, allFilesSize, fs =>
    let f := rotatedFile n
    match fs.stat f.path with
    | (fs, none) => some (rotatedFiles, allFilesSize, fs)
    | (fs, some size) =>
      match rotatedFiles.addMv f with
      | none => none
      | some rotatedFiles =>
        findFiles fuel (n + 1) rotatedFiles ((allFilesSize + size) % 2 ^ 64) fs

def checkFiles (opts : RotationOpts) (ft : FileTarget) : Option (FileTarget × Bool) :=
  let rotatedFiles := ft.rotatedFiles.clear blankFile
  let (fs, size) := ft.fs.stat (some current)
  let tooBig := match size with
    | some size => decide (opts.maxFileSize ≠ 0 ∧ opts.maxFileSize < size)
    | none => false
  let currentSize := match size with
    | some size => size % 2 ^ 32
    | none => ft.currentSize
  (findFiles MAX_ROTATED_FILES 1 rotatedFiles (size.getD 0) fs).map fun (rotatedFiles, allFilesSize, fs) =>
    ({ fs := fs, rotatedFiles := rotatedFiles.reverse, currentSize := currentSize, allFilesSize := allFilesSize },
      tooBig || decide (allFilesSize > opts.maxTotalSize))

def FileTarget.write (ft : FileTarget) (contents : Contents) : FileTarget :=
  { ft with fs := { ft.fs with files := Function.update ft.fs.files current (some contents) } }

def rotations (opts : RotationOpts) : List Contents → FileTarget → Option FileTarget
  | [], ft => some ft
  | contents :: rest, ft => (rotateFiles opts (ft.write contents)).bind (rotations opts rest)

def startAndRotate (opts : RotationOpts) (files : Nat → Option Contents) (written : List Contents) :
    Option FileTarget :=
  (checkFiles opts (opened files)).bind fun (ft, _) => rotations opts written ft

def shiftEach (maxFiles : Nat) : Nat → List RotatedFile → FileSystem → FileSystem × List RotatedFile
  | _, [], fs => (fs, [])
  | n, f :: rest, fs =>
    if maxFiles ≠ 0 ∧ n + 1 > maxFiles then shiftEach maxFiles (n - 1) rest (fs.unlink f.path)
    else
      let newFile := rotatedFile (f.num + 1)
      let (fs, files) := shiftEach maxFiles (n - 1) rest (fs.rename f.path newFile.path).1
      (fs, newFile :: files)

theorem shiftEach_length (maxFiles n : Nat) (files : List RotatedFile) (fs : FileSystem) :
    (shiftEach maxFiles n files fs).2.length ≤ files.length := by
  induction files generalizing n fs with
  | nil => exact Nat.le_refl 0
  | cons f rest ih =>
    rw [shiftEach]
    split
    · exact Nat.le_succ_of_le (ih _ _)
    · exact Nat.succ_le_succ (ih _ _)

/-- As long as the files fit, the queues change as the lists do, and the loop
    ends with nothing left to rotate. -/
theorem rotateLoop_eq (maxFiles : Nat) {fuel : Nat} (n : Nat) {files moved : List RotatedFile}
    {rotatedFiles tempFiles : SafeCircular RotatedFile} (fs : FileSystem)
    (queued : rotatedFiles.Holds files) (filled : tempFiles.Holds moved)
    (room : moved.length + files.length ≤ tempFiles.size) (enough : files.length < fuel) :
    ∃ rotatedFiles' tempFiles',
      rotateLoop maxFiles fuel n rotatedFiles tempFiles fs =
        some (rotatedFiles', tempFiles', (shiftEach maxFiles n files fs).1) ∧
      tempFiles'.size = tempFiles.size ∧
      tempFiles'.Holds (moved ++ (shiftEach maxFiles n files fs).2) := by
  induction files generalizing fuel n moved rotatedFiles tempFiles fs with
  | nil =>
    obtain ⟨fuel, rfl⟩ : ∃ m, fuel = m + 1 := ⟨fuel - 1, by simp at enough; omega⟩
    rw [rotateLoop, SafeCircular.removeMv_empty queued]
    exact ⟨rotatedFiles, tempFiles, rfl, rfl, by simpa [shiftEach] using filled⟩
  | cons f rest ih =>
    rw [List.length_cons] at room enough
    obtain ⟨fuel, rfl⟩ : ∃ m, fuel = m + 1 := ⟨fuel - 1, by omega⟩
    obtain ⟨others, removed, _, othersQueued⟩ := SafeCircular.removeMv_holds queued
    rw [rotateLoop, shiftEach, removed]
    simp only
    split
    · exact ih _ _ othersQueued filled (by omega) (by omega)
    · obtain ⟨longer, added, size, longerFilled⟩ :=
        SafeCircular.addMv_holds filled (by omega) (rotatedFile (f.num + 1))
      rw [added]
      simp only
      have still : (moved ++ [rotatedFile (f.num + 1)]).length + rest.length ≤ longer.size := by
        rw [List.length_append, List.length_singleton, size]
        omega
      obtain ⟨rotatedFiles', tempFiles', result, size', holds⟩ :=
        ih (n - 1) (fs.rename f.path (rotatedFile (f.num + 1)).path).1 othersQueued longerFilled
          still (Nat.lt_of_succ_lt_succ enough)
      refine ⟨rotatedFiles', tempFiles', result, size'.trans size, ?_⟩
      rw [List.append_assoc] at holds
      exact holds

structure Lists (ft : FileTarget) (files : List RotatedFile) : Prop where
  room : ft.rotatedFiles.size = MAX_ROTATED_FILES
  holds : ft.rotatedFiles.Holds files

theorem Lists.short {ft : FileTarget} {files : List RotatedFile} (lists : Lists ft files) :
    files.length ≤ MAX_ROTATED_FILES := by
  have counted := lists.holds.counted
  have room := lists.room
  omega

theorem rotateFiles_eq {opts : RotationOpts} {ft : FileTarget} {files : List RotatedFile}
    (lists : Lists ft files) {n : Nat} (length : files.length = n)
    {fs : FileSystem} {moved : List RotatedFile} (shifted : shiftEach opts.maxFiles n files ft.fs = (fs, moved))
    {contents : Contents} (there : fs.files current = some contents) :
    (moved.length < MAX_ROTATED_FILES → ∃ ft', rotateFiles opts ft = some ft' ∧
      ft'.fs = (fs.rename (some current) (some 1)).1 ∧ ft'.currentSize = 0 ∧
      Lists ft' (moved ++ [rotatedFile 1])) ∧
    (moved.length = MAX_ROTATED_FILES → rotateFiles opts ft = none) := by
  have fits := lists.short
  have remain := lists.holds.remain
  obtain ⟨rotatedFiles', tempFiles', loop, size, holds⟩ :=
    rotateLoop_eq opts.maxFiles n ft.fs lists.holds
      (SafeCircular.new_holds (show 0 < MAX_ROTATED_FILES by decide) blankFile)
      (by simpa [SafeCircular.new] using fits) (show files.length < n + 1 by omega)
  rw [shifted] at loop holds
  rw [List.nil_append] at holds
  have one : (rotatedFile 1).path = some 1 := rfl
  have renamed : (fs.rename (some current) (some 1)).2 = true := by
    rw [FileSystem.rename_there there]
  unfold rotateFiles
  simp only [remain, length, loop, one, renamed, ↓reduceIte]
  constructor
  · intro room
    obtain ⟨full, added, size', holds'⟩ :=
      SafeCircular.addMv_holds holds (by rw [size]; exact room) (rotatedFile 1)
    rw [added]
    exact ⟨_, rfl, rfl, rfl, ⟨size'.trans size, holds'⟩⟩
  · intro full
    rw [SafeCircular.addMv_full holds (by rw [size]; exact full)]
    rfl

def found (files : Nat → Option Contents) : Nat :=
  Nat.findGreatest (fun k => ∀ i < k, (files (i + 1)).isSome = true) (MAX_ROTATED_FILES - 1)

theorem found_eq {files : Nat → Option Contents} {k : Nat} (named : k < MAX_ROTATED_FILES)
    (all : ∀ i < k, (files (i + 1)).isSome = true)
    (last : k + 1 = MAX_ROTATED_FILES ∨ files (k + 1) = none) : found files = k := by
  rw [found, Nat.findGreatest_eq_iff]
  refine ⟨Nat.le_sub_one_of_lt named, fun _ => all, ?_⟩
  intro n above within every
  rcases last with full | missing
  · omega
  · have there := every k above
    rw [missing] at there
    cases there

theorem rotatedFile_path {n : Nat} (positive : 0 < n) (named : n < MAX_ROTATED_FILES) :
    (rotatedFile n).path = some n := by
  rw [rotatedFile, strRotateName, if_pos ⟨named, positive⟩]

def OnlyStats (calls : List Call) : Prop := ∀ c ∈ calls, ∃ path, c = .stat path

def NoNull (calls : List Call) : Prop := ∀ c ∈ calls, c.namesNull = false

theorem findFiles_eq {files : Nat → Option Contents} (fuel : Nat) {k : Nat} (allFilesSize : Nat)
    {rotatedFiles : SafeCircular RotatedFile} {calls : List Call} (named : k < MAX_ROTATED_FILES)
    (enough : MAX_ROTATED_FILES ≤ k + fuel) (all : ∀ i < k, (files (i + 1)).isSome = true)
    (room : rotatedFiles.size = MAX_ROTATED_FILES) (holds : rotatedFiles.Holds (listed k).reverse)
    (stats : OnlyStats calls) (noNull : NoNull calls) :
    ∃ rotatedFiles' allFilesSize' calls',
      findFiles fuel (k + 1) rotatedFiles allFilesSize ⟨files, calls⟩ =
        some (rotatedFiles', allFilesSize', ⟨files, calls'⟩) ∧
      rotatedFiles'.size = MAX_ROTATED_FILES ∧ rotatedFiles'.Holds (listed (found files)).reverse ∧
      OnlyStats calls' ∧ (NoNull calls' ↔ found files + 1 < MAX_ROTATED_FILES) := by
  induction fuel generalizing k allFilesSize rotatedFiles calls with
  | zero => omega
  | succ fuel ih =>
    have stats' : OnlyStats (calls ++ [.stat (rotatedFile (k + 1)).path]) := by
      intro c member
      rcases List.mem_append.mp member with old | new
      · exact stats c old
      · exact ⟨_, List.mem_singleton.mp new⟩
    rw [findFiles]
    by_cases last : k + 1 = MAX_ROTATED_FILES
    · have noPath : (rotatedFile (k + 1)).path = none := by rw [last]; rfl
      have count : found files = k := found_eq named all (Or.inl last)
      rw [noPath] at stats'
      simp only [FileSystem.stat, FileSystem.at?, noPath, Option.bind_none, Option.map_none]
      refine ⟨_, _, _, rfl, room, by rw [count]; exact holds, stats', ?_⟩
      rw [count]
      constructor
      · intro clean
        have bad := clean _ (List.mem_append_right calls (List.mem_singleton_self _))
        cases bad
      · intro below
        omega
    · have path : (rotatedFile (k + 1)).path = some (k + 1) :=
        rotatedFile_path (Nat.succ_pos k) (by omega)
      have noNull' : NoNull (calls ++ [.stat (some (k + 1))]) := by
        intro c member
        rcases List.mem_append.mp member with old | new
        · exact noNull c old
        · rw [List.mem_singleton.mp new]
          rfl
      rw [path] at stats'
      cases there : files (k + 1) with
      | none =>
        have count : found files = k := found_eq named all (Or.inr there)
        simp only [FileSystem.stat, FileSystem.at?, path, Option.bind_some, there, Option.map_none]
        refine ⟨_, _, _, rfl, room, by rw [count]; exact holds, stats', ?_⟩
        rw [count]
        exact iff_of_true noNull' (by omega)
      | some contents =>
        have short : (listed k).reverse.length < rotatedFiles.size := by
          rw [List.length_reverse, listed_length, room]
          exact named
        obtain ⟨longer, added, size, longerHolds⟩ :=
          SafeCircular.addMv_holds holds short (rotatedFile (k + 1))
        have more : ∀ i < k + 1, (files (i + 1)).isSome = true := by
          intro i below
          rcases Nat.lt_succ_iff_lt_or_eq.mp below with before | rfl
          · exact all i before
          · rw [there]
            rfl
        simp only [FileSystem.stat, FileSystem.at?, path, Option.bind_some, there, Option.map_some, added]
        refine ih _ (by omega) (by omega) more (size.trans room) ?_ stats' noNull'
        rw [listed, List.reverse_cons]
        exact longerHolds

theorem checkFiles_eq (opts : RotationOpts) (files : Nat → Option Contents) :
    ∃ ft needsRotation, checkFiles opts (opened files) = some (ft, needsRotation) ∧
      ft.fs.files = files ∧ Lists ft (listed (found files)) ∧
      OnlyStats ft.fs.calls ∧ (NoNull ft.fs.calls ↔ found files + 1 < MAX_ROTATED_FILES) := by
  have empty : ((opened files).rotatedFiles.clear blankFile).Holds (listed 0).reverse :=
    SafeCircular.clear_holds (SafeCircular.new_holds (by decide) blankFile) blankFile
  have stats : OnlyStats [.stat (some current)] := by
    intro c member
    exact ⟨_, List.mem_singleton.mp member⟩
  have noNull : NoNull [.stat (some current)] := by
    intro c member
    rw [List.mem_singleton.mp member]
    rfl
  obtain ⟨rotatedFiles, allFilesSize, calls, search, size, holds, stats', noNull'⟩ :=
    findFiles_eq MAX_ROTATED_FILES (((files current).map List.length).getD 0)
      (show 0 < MAX_ROTATED_FILES by decide) (by omega)
      (fun i below => absurd below (Nat.not_lt_zero i)) rfl empty stats noNull
  obtain ⟨size', holds'⟩ := SafeCircular.reverse_holds holds
  rw [List.reverse_reverse] at holds'
  have start : (FileSystem.stat ⟨files, []⟩ (some current)) =
      (⟨files, [.stat (some current)]⟩, (files current).map List.length) := rfl
  unfold checkFiles
  simp only [opened, start] at search ⊢
  rw [search]
  exact ⟨_, _, rfl, rfl, ⟨size'.trans size, holds'⟩, stats', noNull'⟩

theorem shiftEach_moved (maxFiles m : Nat) (fs : FileSystem) :
    (shiftEach maxFiles m (listed m) fs).2 ++ [rotatedFile 1] =
      listed (if maxFiles = 0 then m + 1 else min (m + 1) maxFiles) := by
  induction m generalizing fs with
  | zero =>
    have one : (if maxFiles = 0 then 0 + 1 else min (0 + 1) maxFiles) = 1 := by split <;> omega
    rw [one]
    rfl
  | succ m ih =>
    rw [listed, shiftEach, Nat.add_sub_cancel]
    split
    · next full =>
      rw [ih]
      congr 1
      split <;> omega
    · next free =>
      have here : (if maxFiles = 0 then m + 1 + 1 else min (m + 1 + 1) maxFiles) = m + 2 := by
        split <;> omega
      have before : (if maxFiles = 0 then m + 1 else min (m + 1) maxFiles) = m + 1 := by
        split <;> omega
      have rest := ih (fs.rename (rotatedFile (m + 1)).path (rotatedFile (m + 1 + 1)).path).1
      rw [before] at rest
      rw [here, listed, ← rest]
      rfl

/-- The rotated files, newest first, when the files above j have been moved up
    already and file j + 1 is therefore missing. -/
def underway (maxFiles : Nat) (kept : List Contents) (j i : Nat) : Option Contents :=
  if i < j then kept[i]? else if i = j then none else if i < maxFiles then kept[i - 1]? else none

def removedContents (calls : List Call) : List Contents := calls.filterMap Call.removed

def NoneReplaced (calls : List Call) : Prop := ∀ c ∈ calls, c.replaced = none

theorem NoneReplaced.add {calls : List Call} {c : Call} (none : NoneReplaced calls)
    (here : c.replaced = .none) : NoneReplaced (calls ++ [c]) := by
  intro d member
  rcases List.mem_append.mp member with old | new
  · exact none d old
  · rw [List.mem_singleton.mp new, here]

theorem underway_gap (maxFiles : Nat) (kept : List Contents) (j : Nat) :
    underway maxFiles kept j j = none := by
  rw [underway, if_neg (Nat.lt_irrefl j), if_pos rfl]

theorem underway_removed {maxFiles j : Nat} (full : maxFiles ≤ j + 1) (kept : List Contents) (i : Nat) :
    (if i = j then none else underway maxFiles kept (j + 1) i) = underway maxFiles kept j i := by
  unfold underway
  split_ifs <;> first | rfl | omega

theorem underway_moved {maxFiles j : Nat} (free : j + 1 < maxFiles) (kept : List Contents) (i : Nat) :
    (if i = j + 1 then kept[j]? else if i = j then none else underway maxFiles kept (j + 1) i) =
      underway maxFiles kept j i := by
  unfold underway
  split_ifs <;> first | rfl | omega | simp_all

/-- What a rotation removes, oldest first, of the newest j contents. -/
theorem oldest_removed {maxFiles j : Nat} {kept : List Contents} (full : maxFiles ≤ j + 1)
    (present : j < kept.length) :
    ((kept.take (j + 1)).drop (maxFiles - 1)).reverse =
      kept[j] :: ((kept.take j).drop (maxFiles - 1)).reverse := by
  have long : maxFiles - 1 ≤ (kept.take j).length := by
    rw [List.length_take]
    omega
  rw [← List.take_append_getElem present, List.drop_append_of_le_length long, List.reverse_append]
  rfl

theorem none_removed {maxFiles j : Nat} (free : j + 1 < maxFiles) (kept : List Contents) :
    (kept.take (j + 1)).drop (maxFiles - 1) = (kept.take j).drop (maxFiles - 1) := by
  rw [List.drop_eq_nil_of_le, List.drop_eq_nil_of_le] <;> rw [List.length_take] <;> omega

theorem current_kept (files : Nat → Option Contents) (m : Nat) (contents : Option Contents) :
    Function.update files (m + 1) contents current = files current :=
  Function.update_of_ne (Nat.succ_ne_zero m).symm contents files

structure Underway (maxFiles : Nat) (kept : List Contents) (j : Nat) (fs : FileSystem) : Prop where
  files : ∀ i, fs.files (i + 1) = underway maxFiles kept j i
  safe : NoneReplaced fs.calls

variable {maxFiles j : Nat} {kept : List Contents} {fs : FileSystem}

theorem Underway.there (state : Underway maxFiles kept (j + 1) fs) (present : j < kept.length) :
    fs.files (j + 1) = some kept[j] := by
  rw [state.files, underway, if_pos (Nat.lt_succ_self j), List.getElem?_eq_getElem]

theorem Underway.unlink (state : Underway maxFiles kept (j + 1) fs) (full : maxFiles ≤ j + 1)
    (present : j < kept.length) :
    Underway maxFiles kept j (fs.unlink (some (j + 1))) ∧
      (fs.unlink (some (j + 1))).files current = fs.files current ∧
      removedContents (fs.unlink (some (j + 1))).calls = removedContents fs.calls ++ [kept[j]] := by
  rw [FileSystem.unlink_there (state.there present)]
  refine ⟨⟨?_, state.safe.add rfl⟩, current_kept fs.files j none,
    by simp [removedContents, Call.removed]⟩
  intro i
  simp only
  rw [← underway_removed full, Function.update_apply, state.files]
  simp only [Nat.add_right_cancel_iff]

theorem Underway.rename (state : Underway maxFiles kept (j + 1) fs) (free : j + 1 < maxFiles)
    (present : j < kept.length) :
    Underway maxFiles kept j (fs.rename (some (j + 1)) (some (j + 2))).1 ∧
      (fs.rename (some (j + 1)) (some (j + 2))).1.files current = fs.files current ∧
      removedContents (fs.rename (some (j + 1)) (some (j + 2))).1.calls = removedContents fs.calls := by
  have gap : fs.files (j + 2) = none := by rw [state.files, underway_gap]
  rw [FileSystem.rename_there (state.there present), gap]
  refine ⟨⟨?_, state.safe.add rfl⟩, ?_, by simp [removedContents, Call.removed]⟩
  · intro i
    simp only
    rw [← underway_moved free, Function.update_apply, Function.update_apply, state.files,
      List.getElem?_eq_getElem present]
    simp only [Nat.add_right_cancel_iff]
  · simp only
    rw [current_kept _ (j + 1), current_kept _ j]

theorem shiftEach_underway (named : maxFiles < MAX_ROTATED_FILES) (limited : 0 < maxFiles)
    (present : j ≤ kept.length) (short : j < MAX_ROTATED_FILES) (state : Underway maxFiles kept j fs) :
    Underway maxFiles kept 0 (shiftEach maxFiles j (listed j) fs).1 ∧
      (shiftEach maxFiles j (listed j) fs).1.files current = fs.files current ∧
      removedContents (shiftEach maxFiles j (listed j) fs).1.calls =
        removedContents fs.calls ++ ((kept.take j).drop (maxFiles - 1)).reverse := by
  induction j generalizing fs with
  | zero => exact ⟨state, rfl, by simp [shiftEach, listed]⟩
  | succ j ih =>
    have path : (rotatedFile (j + 1)).path = some (j + 1) := rotatedFile_path (Nat.succ_pos j) short
    rw [listed, shiftEach, Nat.add_sub_cancel, path]
    split
    · next full =>
      obtain ⟨state', current', removed⟩ := state.unlink (by omega) present
      obtain ⟨last, same, removed'⟩ := ih (by omega) (by omega) state'
      refine ⟨last, same.trans current', ?_⟩
      rw [removed', removed, oldest_removed (by omega) present, List.append_assoc]
      rfl
    · next free =>
      have newPath : (rotatedFile (j + 1 + 1)).path = some (j + 2) :=
        rotatedFile_path (Nat.succ_pos (j + 1)) (by omega)
      have number : (rotatedFile (j + 1)).num = j + 1 := rfl
      obtain ⟨state', current', removed⟩ := state.rename (by omega) present
      obtain ⟨last, same, removed'⟩ := ih (by omega) (by omega) state'
      simp only [number, newPath]
      refine ⟨last, same.trans current', ?_⟩
      rw [removed', removed, none_removed (by omega)]

/-- A target between rotations: its rotated files hold `kept`, newest first, and
    `history` is all that they ever held, oldest first. -/
structure Shifted (history kept : List Contents) (ft : FileTarget) : Prop where
  short : kept.length < MAX_ROTATED_FILES
  files : ∀ i, ft.fs.files (i + 1) = kept[i]?
  lists : Lists ft (listed kept.length)
  safe : NoneReplaced ft.fs.calls
  history : removedContents ft.fs.calls ++ kept.reverse = history

theorem underway_start (maxFiles : Nat) (kept : List Contents) (i : Nat) :
    underway maxFiles kept kept.length i = kept[i]? := by
  unfold underway
  split_ifs with below last
  · rfl
  · rw [List.getElem?_eq_none (by omega)]
  · rw [List.getElem?_eq_none (by omega), List.getElem?_eq_none (by omega)]
  · rw [List.getElem?_eq_none (by omega)]

theorem underway_done (contents : Contents) (i : Nat) :
    underway maxFiles kept 0 (i + 1) = ((contents :: kept).take maxFiles)[i + 1]? := by
  rw [underway, if_neg (Nat.not_lt_zero _), if_neg (Nat.succ_ne_zero i), List.getElem?_take]
  rfl

theorem write_current (ft : FileTarget) (contents : Contents) :
    (ft.write contents).fs.files current = some contents := by
  simp [FileTarget.write]

theorem write_rotated (ft : FileTarget) (contents : Contents) (i : Nat) :
    (ft.write contents).fs.files (i + 1) = ft.fs.files (i + 1) :=
  Function.update_of_ne (Nat.succ_ne_zero i) (some contents) ft.fs.files

theorem Underway.moveCurrent (state : Underway maxFiles kept 0 fs) (limited : 0 < maxFiles)
    {contents : Contents} (there : fs.files current = some contents) :
    (∀ i, (fs.rename (some current) (some 1)).1.files (i + 1) =
        ((contents :: kept).take maxFiles)[i]?) ∧
      (fs.rename (some current) (some 1)).1.calls = fs.calls ++ [.rename (some current) (some 1) none] := by
  have first : fs.files 1 = none := by rw [state.files 0, underway_gap]
  rw [FileSystem.rename_there there, first]
  refine ⟨?_, rfl⟩
  intro i
  simp only [Function.update_apply]
  cases i with
  | zero =>
    rw [List.getElem?_take, if_pos limited]
    rfl
  | succ i =>
    rw [if_neg (by omega), if_neg (show i + 1 + 1 ≠ current from Nat.succ_ne_zero _), state.files,
      underway_done]

theorem rotation_shifts {opts : RotationOpts} (limited : 0 < opts.maxFiles)
    (named : opts.maxFiles < MAX_ROTATED_FILES) {history kept : List Contents} {ft : FileTarget}
    (shifted : Shifted history kept ft) (contents : Contents) :
    ∃ ft', rotateFiles opts (ft.write contents) = some ft' ∧
      Shifted (history ++ [contents]) ((contents :: kept).take opts.maxFiles) ft' := by
  have start : Underway opts.maxFiles kept kept.length (ft.write contents).fs := by
    refine ⟨?_, shifted.safe⟩
    intro i
    rw [underway_start, ← shifted.files, write_rotated]
  obtain ⟨last, same, removed⟩ := shiftEach_underway named limited (Nat.le_refl _) shifted.short start
  have length := shiftEach_length opts.maxFiles kept.length (listed kept.length) (ft.write contents).fs
  have moved := shiftEach_moved opts.maxFiles kept.length (ft.write contents).fs
  generalize result : shiftEach opts.maxFiles kept.length (listed kept.length) (ft.write contents).fs = r
    at last same removed length moved
  obtain ⟨fs, files⟩ := r
  rw [listed_length] at length
  rw [write_current] at same
  have lists : Lists (ft.write contents) (listed kept.length) := ⟨shifted.lists.room, shifted.lists.holds⟩
  obtain ⟨ft', rotated, fs', _, lists'⟩ :=
    (rotateFiles_eq lists (listed_length _) result same).1 (lt_of_le_of_lt length shifted.short)
  obtain ⟨moves, calls⟩ := last.moveCurrent limited same
  refine ⟨ft', rotated, ?_⟩
  constructor
  · rw [List.length_take]
    omega
  · rw [fs']
    exact moves
  · rw [moved, if_neg (by omega)] at lists'
    rw [List.length_take, List.length_cons, Nat.min_comm]
    exact lists'
  · rw [fs', calls]
    exact last.safe.add rfl
  · have before : removedContents (ft.write contents).fs.calls ++ kept.reverse = history := shifted.history
    obtain ⟨m, bound⟩ : ∃ m, opts.maxFiles = m + 1 := ⟨opts.maxFiles - 1, by omega⟩
    have parts : (kept.drop m).reverse ++ (kept.take m).reverse = kept.reverse := by
      rw [← List.reverse_append, List.take_append_drop]
    rw [List.take_length, bound, Nat.add_sub_cancel] at removed
    rw [fs', calls, ← before, bound, List.take_succ_cons, List.reverse_cons, ← parts]
    simp only [removedContents, List.filterMap_append] at removed ⊢
    rw [removed]
    simp [Call.removed]

/-- The contents that are kept, newest first, after a rotation of each of `written`. -/
def newest (maxFiles : Nat) : List Contents → List Contents → List Contents
  | [], kept => kept
  | contents :: rest, kept => newest maxFiles rest ((contents :: kept).take maxFiles)

theorem newest_eq (maxFiles : Nat) {written : List Contents} (some : written ≠ []) (kept : List Contents) :
    newest maxFiles written kept = (written.reverse ++ kept).take maxFiles := by
  induction written generalizing kept with
  | nil => exact absurd rfl some
  | cons contents rest ih =>
    rw [newest]
    cases rest with
    | nil => rfl
    | cons second rest =>
      rw [ih (List.cons_ne_nil second rest), List.reverse_cons (a := contents), List.append_assoc,
        List.take_append, List.take_append, List.take_take, Nat.min_eq_left (Nat.sub_le _ _)]
      rfl

theorem rotations_shift {opts : RotationOpts} (limited : 0 < opts.maxFiles)
    (named : opts.maxFiles < MAX_ROTATED_FILES) (written : List Contents) {history kept : List Contents}
    {ft : FileTarget} (shifted : Shifted history kept ft) :
    ∃ ft', rotations opts written ft = some ft' ∧
      Shifted (history ++ written) (newest opts.maxFiles written kept) ft' := by
  induction written generalizing history kept ft with
  | nil => exact ⟨ft, rfl, by simpa [newest] using shifted⟩
  | cons contents rest ih =>
    obtain ⟨ft', rotated, shifted'⟩ := rotation_shifts limited named shifted contents
    obtain ⟨last, run, final⟩ := ih shifted'
    refine ⟨last, ?_, ?_⟩
    · rw [rotations, rotated]
      exact run
    · rw [List.append_assoc] at final
      exact final

def onDisk (currentFile : Option Contents) (initial : List Contents) : Nat → Option Contents
  | 0 => currentFile
  | i + 1 => initial[i]?

theorem onDisk_found (currentFile : Option Contents) {initial : List Contents}
    (few : initial.length < MAX_ROTATED_FILES) : found (onDisk currentFile initial) = initial.length := by
  refine found_eq few ?_ (Or.inr (List.getElem?_eq_none (Nat.le_refl _)))
  intro i below
  rw [onDisk, List.getElem?_eq_getElem below]
  rfl

theorem stats_remove_nothing {calls : List Call} (stats : OnlyStats calls) :
    removedContents calls = [] ∧ NoneReplaced calls := by
  constructor
  · rw [removedContents, List.filterMap_eq_nil_iff]
    intro c member
    obtain ⟨path, rfl⟩ := stats c member
    rfl
  · intro c member
    obtain ⟨path, rfl⟩ := stats c member
    rfl

/-- What the files and the queue are after a rotation of each of `written`, with
    m rotated files left of those that began as `initial`, newest first. -/
structure ContentsShifted (initial written : List Contents) (m : Nat) (ft : FileTarget) : Prop where
  listed : ft.rotatedFiles.items = listed m
  exist : ∀ i, (ft.fs.files (i + 1)).isSome = true ↔ i < m
  rotated : ∀ i < m, i < written.length → ft.fs.files (i + 1) = written.reverse[i]?
  older : ∀ i < m, written.length ≤ i → ft.fs.files (i + 1) = initial[i - written.length]?
  noneReplaced : NoneReplaced ft.fs.calls
  oldestRemoved : removedContents ft.fs.calls =
    (initial.reverse ++ written).take (initial.length + written.length - m)

theorem shifted_contents {initial written : List Contents} {m : Nat} {ft : FileTarget}
    (bounded : m ≤ written.length + initial.length)
    (shifted : Shifted (initial.reverse ++ written) ((written.reverse ++ initial).take m) ft) :
    ContentsShifted initial written m ft := by
  have length : ((written.reverse ++ initial).take m).length = m := by
    rw [List.length_take, List.length_append, List.length_reverse]
    omega
  constructor
  · rw [shifted.lists.holds.items_eq, length]
  · intro i
    rw [shifted.files, Option.isSome_iff_ne_none, ne_eq, List.getElem?_eq_none_iff, length, Nat.not_le]
  · intro i below recent
    rw [shifted.files, List.getElem?_take, if_pos below, List.getElem?_append_left]
    rw [List.length_reverse]
    exact recent
  · intro i below old
    rw [shifted.files, List.getElem?_take, if_pos below, List.getElem?_append_right, List.length_reverse]
    rw [List.length_reverse]
    exact old
  · exact shifted.safe
  · have all := shifted.history
    have count : (removedContents ft.fs.calls).length = initial.length + written.length - m := by
      have lengths := congrArg List.length all
      simp only [List.length_append, List.length_reverse, length] at lengths
      omega
    rw [← all, ← count, List.take_left]

/-- Rotations lose no content but the oldest, whatever their number. -/
theorem rotations_keep_contents (opts : RotationOpts) (currentFile : Option Contents)
    (initial written : List Contents) (limited : 1 ≤ opts.maxFiles)
    (named : opts.maxFiles ≤ MAX_ROTATED_FILES - 1) (few : initial.length < MAX_ROTATED_FILES) :
    ∃ ft, startAndRotate opts (onDisk currentFile initial) written = some ft ∧
      ContentsShifted initial written
        (if written = [] then initial.length
          else min (initial.length + written.length) opts.maxFiles) ft := by
  obtain ⟨ft, needsRotation, checked, files, lists, stats, _⟩ :=
    checkFiles_eq opts (onDisk currentFile initial)
  obtain ⟨noneRemoved, noneReplaced⟩ := stats_remove_nothing stats
  rw [onDisk_found currentFile few] at lists
  have start : Shifted initial.reverse initial ft := by
    refine ⟨few, ?_, lists, noneReplaced, by rw [noneRemoved, List.nil_append]⟩
    intro i
    rw [files]
    rfl
  have below : opts.maxFiles < MAX_ROTATED_FILES := by simp only [MAX_ROTATED_FILES] at *; omega
  obtain ⟨last, run, shifted⟩ := rotations_shift limited below written start
  refine ⟨last, by rw [startAndRotate, checked]; exact run, ?_⟩
  split
  · next none =>
    subst none
    have whole : newest opts.maxFiles [] initial = (([] : List Contents).reverse ++ initial).take
        initial.length := List.take_length.symm
    rw [whole] at shifted
    exact shifted_contents (by simp) shifted
  · next some =>
    have length : (written.reverse ++ initial).length = initial.length + written.length := by
      rw [List.length_append, List.length_reverse, Nat.add_comm]
    rw [newest_eq opts.maxFiles some, List.take_eq_take_min, length, Nat.min_comm] at shifted
    exact shifted_contents (by omega) shifted

theorem rotations_keep_contents_two :
    ∃ ft, startAndRotate ⟨2, 0, 0⟩ (onDisk (some [7]) [[1], [2]]) [[3], [4]] = some ft ∧
      ContentsShifted [[1], [2]] [[3], [4]] 2 ft :=
  rotations_keep_contents ⟨2, 0, 0⟩ (some [7]) [[1], [2]] [[3], [4]] (by decide) (by decide) (by decide)

end GreaseLog.FileShift
