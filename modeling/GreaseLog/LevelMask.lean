import GreaseLog.FilterOptions
import GreaseLog.Lib.Runs
import GreaseLog.LogCall

/- setGlobalOpts and the functions log.LEVEL (index.js): the way out when MASK_OUT has the
   level, before _log numbers the names and before any native call, and the test that sift
   makes. What util.format runs of the caller's own is not in the model. -/
namespace GreaseLog

/-- A value where a number is expected: its truth, and the integer that ToInt32 and ToUint32
    start from, which is 0 for NaN and the infinities. -/
structure JsInteger where
  truthy : Bool
  integer : Int
  falsy : truthy = false → integer = 0

def JsInteger.undefined : JsInteger := ⟨false, 0, fun _ => rfl⟩

def JsInteger.uint32 (v : JsInteger) : UInt32 := UInt32.ofNat (v.integer % 2 ^ 32).toNat

structure JsLevel extends JsInteger where
  exact : Bool

def JsLevel.int32 (n : JsLevel) : Option LevelMask :=
  if n.exact ∧ -2 ^ 31 ≤ n.integer ∧ n.integer < 2 ^ 31 then some n.uint32 else none

structure JsMessage where
  message : Option (List Byte)
  names : GivenNames := {}
  extras : Option JsIgnores := none

def JsValue.int32 : JsValue → Option UInt32
  | .number n => if n < 2 ^ 31 then some n.toUInt32 else none
  | _ => none

def NameTable.Known (t : NameTable) : Option JsString → Prop
  | none => True
  | some o => o = [] ∨ (t.get o).truthy = true

structure MaskedLogger where
  maskOut : JsInteger := .undefined
  session : FilterSession
  opts : Opts
  static : ExtraLogMeta

/-- Calls on the node thread. Those of `options` number names and change the filter table; `fmt`
    is LEVEL_fmt, or another call of _log that makes no test. -/
inductive MaskCall where
  | setGlobalOpts (levelFilterOutMask : JsInteger) (defaultFilterOut : Option Bool)
  | options (c : OptionCall)
  | level (n : JsLevel) (m : JsMessage)
  | fmt (n : JsLevel) (m : JsMessage)

namespace MaskedLogger

def setGlobalOpts (s : MaskedLogger) (mask : JsInteger) (defaultFilterOut : Option Bool) : MaskedLogger :=
  { s with
    maskOut := if mask.truthy then mask else s.maskOut
    opts := { s.opts with
      levelFilterOutMask := if mask.uint32 ≠ 0 then mask.uint32 else s.opts.levelFilterOutMask
      defaultFilterOut := defaultFilterOut.getD s.opts.defaultFilterOut } }

def stops (s : MaskedLogger) (n : JsLevel) : Bool := s.maskOut.uint32 &&& n.uint32 ≠ 0

def native (s : MaskedLogger) (args : LogArgs) : MaskedLogger × Option (ExtraLogMeta × List Byte) :=
  let r := logCall s.session.table s.opts s.static args
  ({ s with static := r.1 }, r.2)

def _log (s : MaskedLogger) (n : JsLevel) (m : JsMessage) :
    MaskedLogger × Option (ExtraLogMeta × List Byte) :=
  let r := s.session.log m.names
  let s := { s with session := r.1 }
  match r.2 with
  | none => (s, none)
  | some ids =>
    s.native
      { message := m.message, level := n.int32, tag := ids.tag.int32, origin := ids.origin.int32
        extras := m.extras }

def call (fast : Bool) (s : MaskedLogger) : MaskCall → MaskedLogger × Option (ExtraLogMeta × List Byte)
  | .setGlobalOpts mask defaultFilterOut => (s.setGlobalOpts mask defaultFilterOut, none)
  | .options c => ({ s with session := s.session.apply c }, none)
  | .level n m => if fast && s.stops n then (s, none) else s._log n m
  | .fmt n m => s._log n m

def logged (fast : Bool) : MaskedLogger → List MaskCall → List (ExtraLogMeta × List Byte)
  | _, [] => []
  | s, c :: calls => (s.call fast c).2.toList ++ logged fast (s.call fast c).1 calls

def after (s : MaskedLogger) (c : MaskCall) : MaskedLogger := (s.call true c).1

def Exact (s : MaskedLogger) : Prop :=
  ∀ n level, n.int32 = some level → (s.stops n = true ↔ s.opts.levelFilterOutMask &&& level ≠ 0)

/-- No truthy value with 32 zero bits is given for a mask while sift has one. -/
def KeepsMask (s : MaskedLogger) : MaskCall → Prop
  | .setGlobalOpts mask _ => mask.truthy = true → mask.uint32 = 0 → s.opts.levelFilterOutMask = 0
  | _ => True

/-- A level call that is stopped gives no name that would get its id by it. -/
def NamesKnown (s : MaskedLogger) : MaskCall → Prop
  | .level n m => s.stops n = true →
      s.session.names.origins.Known m.names.origin ∧ s.session.names.tags.Known m.names.tag
  | _ => True

/-- Two loggers of the same calls, one with the fast way out. What an earlier call has left in
    the static meta is gone, but for its ignore list. -/
structure Matches (s s' : MaskedLogger) : Prop where
  session : s'.session = s.session
  opts : s'.opts = s.opts
  ignoreList : s'.static.ignoreList = s.static.ignoreList

variable {s s' : MaskedLogger}

def Sound (s : MaskedLogger) : Prop := s.maskOut.uint32 = 0 ∨ s.maskOut.uint32 = s.opts.levelFilterOutMask

theorem falsy_uint32 {v : JsInteger} (falsy : v.truthy = false) : v.uint32 = 0 := by
  rw [JsInteger.uint32, v.falsy falsy]
  rfl

theorem setGlobalOpts_sound (sound : s.Sound) (mask : JsInteger) (defaultFilterOut : Option Bool) :
    (s.setGlobalOpts mask defaultFilterOut).Sound := by
  unfold Sound setGlobalOpts
  dsimp only
  cases truth : mask.truthy with
  | false =>
    rw [falsy_uint32 truth]
    exact sound
  | true =>
    by_cases zero : mask.uint32 = 0
    · exact Or.inl zero
    · exact Or.inr (if_pos zero).symm

theorem _log_masks (s : MaskedLogger) (n : JsLevel) (m : JsMessage) :
    (s._log n m).1.maskOut = s.maskOut ∧ (s._log n m).1.opts = s.opts := by
  unfold _log
  dsimp only
  split
  · exact ⟨rfl, rfl⟩
  · exact ⟨rfl, rfl⟩

theorem call_masks (fast : Bool) (s : MaskedLogger) {c : MaskCall}
    (other : ∀ mask defaultFilterOut, c ≠ .setGlobalOpts mask defaultFilterOut) :
    (s.call fast c).1.maskOut = s.maskOut ∧ (s.call fast c).1.opts = s.opts := by
  cases c with
  | setGlobalOpts mask defaultFilterOut => exact absurd rfl (other mask defaultFilterOut)
  | options c => exact ⟨rfl, rfl⟩
  | level n m =>
    rw [call]
    split
    · exact ⟨rfl, rfl⟩
    · exact _log_masks s n m
  | fmt n m => exact _log_masks s n m

theorem call_sound (fast : Bool) (sound : s.Sound) (c : MaskCall) : (s.call fast c).1.Sound := by
  by_cases masked : ∃ mask defaultFilterOut, c = .setGlobalOpts mask defaultFilterOut
  · obtain ⟨mask, defaultFilterOut, rfl⟩ := masked
    exact setGlobalOpts_sound sound mask defaultFilterOut
  · push Not at masked
    obtain ⟨maskOut, opts⟩ := call_masks fast s masked
    rw [Sound, maskOut, opts]
    exact sound

/-- What is stopped would not have passed sift. -/
theorem stopped_masked (sound : s.Sound) {n : JsLevel} {level : LevelMask} (stopped : s.stops n = true)
    (leveled : n.int32 = some level) : s.opts.levelFilterOutMask &&& level ≠ 0 := by
  unfold stops at stopped
  rw [decide_eq_true_eq] at stopped
  unfold JsLevel.int32 at leveled
  split at leveled
  · obtain rfl := Option.some.inj leveled
    rcases sound with none | same
    · rw [none, UInt32.zero_and] at stopped
      exact absurd rfl stopped
    · rwa [same] at stopped
  · cases leveled

theorem logCall_masked (T : FilterTable) {opts : Opts} (static : ExtraLogMeta) (args : LogArgs)
    (masked : ∀ level, args.level = some level → opts.levelFilterOutMask &&& level ≠ 0) :
    (logCall T opts static args).1.ignoreList = static.ignoreList ∧
      (logCall T opts static args).2 = none := by
  unfold logCall
  split
  · rename_i level _ leveled
    have out : sift T opts (args.fields level) = (false, args.fields level) := if_pos (masked level leveled)
    rw [out]
    exact ⟨rfl, rfl⟩
  · exact ⟨rfl, rfl⟩

/-- Only the ignore list of the static meta is read. -/
theorem logCall_ignoreList (T : FilterTable) (opts : Opts) {static static' : ExtraLogMeta} (args : LogArgs)
    (same : static'.ignoreList = static.ignoreList) :
    (logCall T opts static' args).1.ignoreList = (logCall T opts static args).1.ignoreList ∧
      (logCall T opts static' args).2 = (logCall T opts static args).2 := by
  unfold logCall
  split
  · dsimp only
    split
    · split
      · rw [same]
        exact ⟨rfl, rfl⟩
      · rw [same]
        exact ⟨rfl, rfl⟩
    · exact ⟨same, rfl⟩
  · exact ⟨same, rfl⟩

theorem known_settled {t : NameTable} {name : Option JsString} (known : t.Known name) :
    ∃ value, t.Settled name value := by
  cases name with
  | none => exact ⟨_, .absent⟩
  | some o =>
    by_cases empty : o = []
    · subst empty
      exact ⟨_, .empty⟩
    · exact ⟨_, .named empty (known.resolve_left empty)⟩

theorem log_known {session : FilterSession} {names : GivenNames}
    (origin : session.names.origins.Known names.origin) (tag : session.names.tags.Known names.tag) :
    ∃ ids, session.log names = (session, some ids) := by
  obtain ⟨originN, settledOrigin⟩ := known_settled origin
  obtain ⟨tagN, settledTag⟩ := known_settled tag
  have logged : session.log names = (session, some ⟨tagN, originN⟩) := by
    simp only [FilterSession.log, settledOrigin.nameId, settledTag.nameId, Option.map_some]
  exact ⟨_, logged⟩

/-- What a stopped call would have done: it leaves its meta in the static variable. -/
theorem _log_stopped (sound : s.Sound) {n : JsLevel} {m : JsMessage} (stopped : s.stops n = true)
    (known : s.NamesKnown (.level n m)) :
    Matches s (s._log n m).1 ∧ (s._log n m).2 = none := by
  obtain ⟨origin, tag⟩ := known stopped
  obtain ⟨ids, logged⟩ := log_known origin tag
  simp only [_log, logged, native]
  obtain ⟨kept, nothing⟩ := logCall_masked s.session.table s.static
    { message := m.message, level := n.int32, tag := ids.tag.int32, origin := ids.origin.int32
      extras := m.extras }
    fun level leveled => stopped_masked sound stopped leveled
  exact ⟨⟨rfl, rfl, kept⟩, nothing⟩

theorem Matches.trans {s'' : MaskedLogger} (first : Matches s s') (second : Matches s' s'') :
    Matches s s'' :=
  ⟨second.session.trans first.session, second.opts.trans first.opts,
    second.ignoreList.trans first.ignoreList⟩

theorem native_matches (alike : Matches s s') (args : LogArgs) :
    Matches (s.native args).1 (s'.native args).1 ∧ (s'.native args).2 = (s.native args).2 := by
  obtain ⟨kept, same⟩ := logCall_ignoreList s.session.table s.opts args alike.ignoreList
  simp only [native, alike.session, alike.opts]
  exact ⟨⟨rfl, rfl, kept⟩, same⟩

theorem _log_matches (alike : Matches s s') (n : JsLevel) (m : JsMessage) :
    Matches (s._log n m).1 (s'._log n m).1 ∧ (s'._log n m).2 = (s._log n m).2 := by
  have numbered (session : FilterSession) :
      Matches { s with session := session } { s' with session := session } :=
    ⟨rfl, alike.opts, alike.ignoreList⟩
  simp only [_log, alike.session]
  split
  · exact ⟨numbered _, rfl⟩
  · exact native_matches (numbered _) _

/-- A call with the fast way out and the same call without. -/
theorem call_matches (sound : s.Sound) (alike : Matches s s') {c : MaskCall} (known : s.NamesKnown c) :
    Matches (s.call true c).1 (s'.call false c).1 ∧ (s'.call false c).2 = (s.call true c).2 := by
  cases c with
  | setGlobalOpts mask defaultFilterOut =>
    refine ⟨⟨alike.session, ?_, alike.ignoreList⟩, rfl⟩
    simp only [call, setGlobalOpts, alike.opts]
  | options c =>
    simp only [call, alike.session]
    exact ⟨⟨rfl, alike.opts, alike.ignoreList⟩, trivial⟩
  | level n m =>
    obtain ⟨alike', same⟩ := _log_matches alike n m
    simp only [call, Bool.false_and, Bool.true_and, Bool.false_eq_true, if_false]
    split
    · rename_i stopped
      obtain ⟨unchanged, nothing⟩ := _log_stopped sound stopped known
      exact ⟨unchanged.trans alike', same.trans nothing⟩
    · exact ⟨alike', same⟩
  | fmt n m => exact _log_matches alike n m

theorem logged_matches (sound : s.Sound) (alike : Matches s s') {calls : List MaskCall}
    (known : Runs.Checked NamesKnown after s calls) :
    s'.logged false calls = s.logged true calls := by
  induction calls generalizing s s' with
  | nil => rfl
  | cons c calls ih =>
    obtain ⟨alike', same⟩ := call_matches sound alike known.1
    rw [logged, logged, same, ih (call_sound true sound c) alike' known.2]

def start (session : FilterSession) (static : ExtraLogMeta) : MaskedLogger :=
  { session := session, opts := {}, static := static }

/-- While no call that is stopped would have given a name its id, the fast way out takes nothing
    from what is logged and adds nothing to it: whatever values are given for masks and levels,
    the native _log is called with the same metas and texts. -/
theorem fast_path_transparent (session : FilterSession) (static : ExtraLogMeta)
    (calls : List MaskCall) (known : Runs.Checked NamesKnown after (start session static) calls) :
    (start session static).logged true calls = (start session static).logged false calls := by
  have sound : (start session static).Sound := Or.inl rfl
  exact (logged_matches sound ⟨rfl, rfl, rfl⟩ known).symm

def int32Level (n : Nat) : JsLevel := { truthy := n != 0, integer := n, exact := true, falsy := by simp }

def tagged (n : Nat) (tag : String) : MaskCall :=
  .level (int32Level n) { message := some [97], names := { tag := some (jsString tag) } }

def knownNames : List MaskCall :=
  [tagged 4 "db", .setGlobalOpts (int32Level 8).toJsInteger none, tagged 8 "db", tagged 4 "net"]

theorem fast_path_transparent_known :
    (start (.start fun _ => .new) initialStatic).logged true knownNames =
        (start (.start fun _ => .new) initialStatic).logged false knownNames ∧
      ((start (.start fun _ => .new) initialStatic).logged true knownNames).map (fun r => r.1.m.tag) =
        [3, 4] := by
  refine ⟨fast_path_transparent _ _ _ ?_, by decide⟩
  have passes (s : MaskedLogger) (goes : s.stops (int32Level 4) = false) {m : JsMessage} :
      s.NamesKnown (.level (int32Level 4) m) := by
    intro stopped
    rw [goes] at stopped
    cases stopped
  exact ⟨passes _ (by decide), trivial, fun _ => ⟨trivial, Or.inr (by decide)⟩, passes _ (by decide), trivial⟩

/-- A name that is new in a stopped call is numbered without the fast way out only. -/
example :
    let calls := [.setGlobalOpts (int32Level 8).toJsInteger none, tagged 8 "db", tagged 4 "net"]
    ((start (.start fun _ => .new) initialStatic).logged true calls).map (fun r => r.1.m.tag) = [3] ∧
      ((start (.start fun _ => .new) initialStatic).logged false calls).map (fun r => r.1.m.tag) =
        [4] := by
  decide

/-! Where the two masks are the same. -/

theorem level_of_bits (bits : UInt32) : ∃ n : JsLevel, n.uint32 = bits ∧ n.int32 = some bits := by
  have small := bits.toNat_lt
  by_cases positive : bits.toNat < 2 ^ 31
  · let n : JsLevel := { truthy := true, integer := bits.toNat, falsy := nofun, exact := true }
    have same : n.uint32 = bits := by
      show UInt32.ofNat ((bits.toNat : Int) % 2 ^ 32).toNat = bits
      rw [Int.emod_eq_of_lt (by omega) (by omega), Int.toNat_natCast, UInt32.ofNat_toNat]
    refine ⟨n, same, ?_⟩
    rw [JsLevel.int32, if_pos, same]
    exact ⟨rfl, by show (_ : Int) ≤ bits.toNat; omega, by show (bits.toNat : Int) < _; omega⟩
  · let n : JsLevel :=
      { truthy := true, integer := (bits.toNat : Int) - 2 ^ 32, falsy := nofun, exact := true }
    have same : n.uint32 = bits := by
      show UInt32.ofNat (((bits.toNat : Int) - 2 ^ 32) % 2 ^ 32).toNat = bits
      rw [Int.sub_emod_right, Int.emod_eq_of_lt (by omega) (by omega), Int.toNat_natCast,
        UInt32.ofNat_toNat]
    refine ⟨n, same, ?_⟩
    rw [JsLevel.int32, if_pos, same]
    exact ⟨rfl, by show (_ : Int) ≤ bits.toNat - 2 ^ 32; omega,
      by show (bits.toNat : Int) - 2 ^ 32 < _; omega⟩

theorem masks_eq {a b : UInt32} (same : ∀ n : UInt32, a &&& n ≠ 0 ↔ b &&& n ≠ 0) : a = b := by
  have left : a &&& ~~~b = 0 := by
    by_contra some
    have other := (same (a &&& ~~~b)).mp (by rwa [← UInt32.and_assoc, UInt32.and_self])
    refine other ?_
    rw [UInt32.and_comm a, ← UInt32.and_assoc, UInt32.and_not_self, UInt32.zero_and]
  have right : b &&& ~~~a = 0 := by
    by_contra some
    have other := (same (b &&& ~~~a)).mpr (by rwa [← UInt32.and_assoc, UInt32.and_self])
    refine other ?_
    rw [UInt32.and_comm b, ← UInt32.and_assoc, UInt32.and_not_self, UInt32.zero_and]
  apply UInt32.eq_of_toBitVec_eq
  ext i inside
  have onlyLeft := congrArg (fun bits : UInt32 => bits.toBitVec[i]) left
  have onlyRight := congrArg (fun bits : UInt32 => bits.toBitVec[i]) right
  simp at onlyLeft onlyRight
  exact Bool.eq_iff_iff.mpr ⟨onlyLeft, onlyRight⟩

theorem exact_iff (s : MaskedLogger) : s.Exact ↔ s.maskOut.uint32 = s.opts.levelFilterOutMask := by
  constructor
  · intro exact_
    refine masks_eq fun bits => ?_
    obtain ⟨n, same, leveled⟩ := level_of_bits bits
    have told := exact_ n bits leveled
    rwa [stops, decide_eq_true_eq, same] at told
  · intro same n level leveled
    unfold JsLevel.int32 at leveled
    split at leveled
    · obtain rfl := Option.some.inj leveled
      rw [stops, decide_eq_true_eq, same]
    · cases leveled

/-- The fast way out stops each level that sift would mask, in every state, if and only if no
    value that is truthy but has 32 zero bits (2^32, an object, a text that is no number) is given
    for a mask while there is one: MASK_OUT forgets it then, and the native mask stays. -/
theorem masks_agree_iff (session : FilterSession) (static : ExtraLogMeta) (calls : List MaskCall) :
    (∀ n, ((calls.take n).foldl after (start session static)).Exact) ↔
      Runs.Checked KeepsMask after (start session static) calls := by
  have each : ∀ (s : MaskedLogger) c, s.Exact → ((s.after c).Exact ↔ s.KeepsMask c) := by
    intro s c before
    rw [exact_iff] at before ⊢
    have untouched (other : ∀ mask defaultFilterOut, c ≠ .setGlobalOpts mask defaultFilterOut) :
        (s.after c).maskOut.uint32 = (s.after c).opts.levelFilterOutMask := by
      obtain ⟨maskOut, opts⟩ := call_masks true s other
      rw [after, maskOut, opts, before]
    cases c with
    | setGlobalOpts mask defaultFilterOut =>
      simp only [after, call, setGlobalOpts, KeepsMask]
      cases truth : mask.truthy with
      | false => simp [falsy_uint32 truth, before]
      | true =>
        by_cases zero : mask.uint32 = 0
        · simp [zero, eq_comm]
        · simp [zero]
    | options c => exact iff_of_true (untouched nofun) trivial
    | level n m => exact iff_of_true (untouched nofun) trivial
    | fmt n m => exact iff_of_true (untouched nofun) trivial
  rw [Runs.always_iff_checked each]
  exact and_iff_right ((exact_iff _).mpr rfl)

end MaskedLogger

end GreaseLog
