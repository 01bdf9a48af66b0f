import GreaseLog.RoutingSpec

/- GreaseLogger::Log, which builds its meta in a function-static extra_logMeta.
   The ignore list of an earlier call survives in it. -/
namespace GreaseLog

/-- The property `ignores` of the extras object, by the type tests made on it. -/
inductive JsIgnores where
  | array : List TargetId → JsIgnores
  | uint32 : TargetId → JsIgnores
  | other
  deriving DecidableEq

/-- The arguments of Log; none is absent or not of the type that is tested. -/
structure LogArgs where
  message : Option (List Byte)
  level : Option LevelMask
  tag : Option TagId := none
  origin : Option OriginId := none
  extras : Option JsIgnores := none
  deriving DecidableEq

def setIgnore (list : Fin 11 → TargetId) (i : Nat) (v : TargetId) : Fin 11 → TargetId :=
  fun j => if j.val = i then v else list j

/-- The loop over the array, and the terminator behind it. -/
def copyIgnores (list : Fin 11 → TargetId) (i : Nat) : List TargetId → Fin 11 → TargetId
  | [] => setIgnore list i 0
  | v :: rest =>
    if i ≥ MAX_IGNORE_LIST then setIgnore list i 0
    else copyIgnores (setIgnore list i v) (i + 1) rest

def JsIgnores.store (list : Fin 11 → TargetId) : JsIgnores → Fin 11 → TargetId
  | .array values => copyIgnores list 0 values
  | .uint32 v => setIgnore (setIgnore list 0 v) 1 0
  | .other => list

/-- The meta that a call builds before its sift. -/
def LogArgs.fields (args : LogArgs) (level : LevelMask) : LogMeta :=
  { noMetaData with level := level, tag := args.tag.getD 0, origin := args.origin.getD 0 }

/-- The static meta after the call, and what is given to _log. -/
def logCall (T : FilterTable) (opts : Opts) (static : ExtraLogMeta) (args : LogArgs) :
    ExtraLogMeta × Option (ExtraLogMeta × List Byte) :=
  match args.message, args.level with
  | some text, some level =>
    let r := sift T opts (args.fields level)
    let static := { static with m := r.2 }
    if r.1 then
      match args.extras with
      | some ignores =>
        let static : ExtraLogMeta :=
          { m := { static.m with extras := 1 }, ignoreList := ignores.store static.ignoreList }
        (static, some (static, text))
      | none => (static, some (static, text))
    else (static, none)
  | _, _ => ({ static with m := noMetaData }, none)

def initialStatic : ExtraLogMeta := ⟨{ noMetaData with tag := 0, cachedHash := fun _ => 0 }, fun _ => 0⟩

def staticAfter (T : FilterTable) (opts : Opts) (earlier : List LogArgs) : ExtraLogMeta :=
  earlier.foldl (fun static args => (logCall T opts static args).1) initialStatic

def enqueuedFor (T : FilterTable) (opts : Opts) (earlier : List LogArgs) (args : LogArgs) :
    Option (LevelMask × TagId × OriginId × List TargetId) :=
  (logCall T opts (staticAfter T opts earlier) args).2.map fun r =>
    (r.1.m.level, r.1.m.tag, r.1.m.origin, r.1.effectiveIgnores)

def LogArgs.Logged (T : FilterTable) (opts : Opts) (args : LogArgs) : Prop :=
  args.message.isSome ∧ ∃ level, args.level = some level ∧ (sift T opts (args.fields level)).1 = true

/-! The list that a call leaves. -/

theorem setIgnore_other (list : Fin 11 → TargetId) {i : Nat} {j : Fin 11} (v : TargetId)
    (ne : j.val ≠ i) : setIgnore list i v j = list j := by
  simp [setIgnore, ne]

theorem copyIgnores_before (values : List TargetId) (list : Fin 11 → TargetId) {i : Nat}
    {j : Fin 11} (before : j.val < i) : copyIgnores list i values j = list j := by
  induction values generalizing list i with
  | nil => exact setIgnore_other list 0 (by omega)
  | cons v rest ih =>
    unfold copyIgnores
    split
    · exact setIgnore_other list 0 (by omega)
    · rw [ih _ (by omega), setIgnore_other _ _ (by omega)]

/-- Up to the first terminator the copied list is the array, cut at ten entries. -/
theorem copyIgnores_after (values : List TargetId) (list list' : Fin 11 → TargetId) (i : Nat)
    (bound : i ≤ MAX_IGNORE_LIST) (j : Fin 11) (first : i ≤ j.val)
    (running : ∀ k : Fin 11, i ≤ k.val → k.val < j.val → copyIgnores list i values k ≠ 0) :
    copyIgnores list i values j = copyIgnores list' i values j := by
  induction values generalizing list list' i with
  | nil =>
    by_cases same : j.val = i
    · simp [copyIgnores, setIgnore, same]
    · have stop := running ⟨i, by unfold MAX_IGNORE_LIST at bound; omega⟩ le_rfl (by simp; omega)
      simp [copyIgnores, setIgnore] at stop
  | cons v rest ih =>
    by_cases full : i ≥ MAX_IGNORE_LIST
    · by_cases same : j.val = i
      · simp [copyIgnores, full, setIgnore, same]
      · have stop := running ⟨i, by unfold MAX_IGNORE_LIST at bound; omega⟩ le_rfl (by simp; omega)
        simp [copyIgnores, full, setIgnore] at stop
    · by_cases same : j.val = i
      · simp only [copyIgnores, full, if_false]
        rw [copyIgnores_before rest _ (by omega), copyIgnores_before rest _ (by omega)]
        simp [setIgnore, same]
      · simp only [copyIgnores, full, if_false] at running ⊢
        exact ih _ _ (i + 1) (by omega) (by omega) fun k above below =>
          running k (by omega) below

theorem takeWhile_ofFn_congr {n : Nat} (p : TargetId → Bool) (f g : Fin n → TargetId)
    (agree : ∀ j, (∀ k < j, p (f k) = true) → f j = g j) :
    (List.ofFn f).takeWhile p = (List.ofFn g).takeWhile p := by
  induction n with
  | zero => rfl
  | succ n ih =>
    have first : f 0 = g 0 := agree 0 fun k below => absurd below (Nat.not_lt_zero _)
    rw [List.ofFn_succ, List.ofFn_succ, List.takeWhile_cons, List.takeWhile_cons, ← first]
    cases holds : p (f 0) with
    | false => rfl
    | true =>
      simp only [if_true]
      congr 1
      refine ih (fun j => f j.succ) (fun j => g j.succ) fun j earlier => agree j.succ fun k below => ?_
      cases k using Fin.cases with
      | zero => exact holds
      | succ k => exact earlier k (Fin.succ_lt_succ_iff.mp below)

/-- An array or a number replaces the list; what else it held is not read. -/
theorem store_own {ignores : JsIgnores} (own : ignores ≠ .other) (m m' : LogMeta)
    (list list' : Fin 11 → TargetId) :
    (⟨m, ignores.store list⟩ : ExtraLogMeta).ignores =
      (⟨m', ignores.store list'⟩ : ExtraLogMeta).ignores := by
  refine takeWhile_ofFn_congr _ _ _ fun j running => ?_
  have running : ∀ k : Fin 11, k.val < j.val → ignores.store list k ≠ 0 :=
    fun k below => by simpa using running k below
  cases ignores with
  | other => exact absurd rfl own
  | array values =>
    exact copyIgnores_after values list list' 0 (Nat.zero_le _) j (Nat.zero_le _)
      fun k _ below => running k below
  | uint32 v =>
    by_cases zero : j.val = 0
    · simp [JsIgnores.store, setIgnore, zero]
    · by_cases one : j.val = 1
      · simp [JsIgnores.store, setIgnore, one]
      · have stop := running 1 (by simp; omega)
        simp [JsIgnores.store, setIgnore] at stop

theorem setIgnore_terminated {list : Fin 11 → TargetId} (i : Nat) (terminated : list 10 = 0) :
    setIgnore list i 0 10 = 0 := by
  unfold setIgnore
  split
  · rfl
  · exact terminated

theorem copyIgnores_terminated (values : List TargetId) (list : Fin 11 → TargetId) (i : Nat)
    (terminated : list 10 = 0) : copyIgnores list i values 10 = 0 := by
  induction values generalizing list i with
  | nil => exact setIgnore_terminated i terminated
  | cons v rest ih =>
    unfold copyIgnores
    split
    · exact setIgnore_terminated i terminated
    · rename_i inside
      refine ih _ _ ?_
      have before : (10 : Fin 11).val ≠ i := by
        unfold MAX_IGNORE_LIST at inside
        simp
        omega
      rw [setIgnore_other _ _ before, terminated]

theorem logCall_terminated (T : FilterTable) (opts : Opts) {static : ExtraLogMeta}
    (terminated : static.Terminated) (args : LogArgs) :
    (logCall T opts static args).1.Terminated := by
  unfold logCall
  split
  · simp only
    split
    · split
      · rename_i ignores _
        cases ignores with
        | other => exact terminated
        | array values => exact copyIgnores_terminated values _ 0 terminated
        | uint32 v =>
          change setIgnore (setIgnore static.ignoreList 0 v) 1 0 10 = 0
          rw [setIgnore_other _ _ (by decide), setIgnore_other _ _ (by decide)]
          exact terminated
      · exact terminated
    · exact terminated
  · exact terminated

theorem staticAfter_terminated (T : FilterTable) (opts : Opts) (earlier : List LogArgs) :
    (staticAfter T opts earlier).Terminated := by
  unfold staticAfter
  have start : initialStatic.Terminated := rfl
  generalize initialStatic = static at start
  induction earlier generalizing static with
  | nil => exact start
  | cons args rest ih => exact ih _ (logCall_terminated T opts start args)

/-! Two histories. -/

theorem logCall_logged {T : FilterTable} {opts : Opts} (static : ExtraLogMeta) (args : LogArgs)
    {text : List Byte} {level : LevelMask} (message : args.message = some text)
    (leveled : args.level = some level) (passes : (sift T opts (args.fields level)).1 = true) :
    logCall T opts static args =
      match args.extras with
      | some ignores =>
        let result : ExtraLogMeta :=
          { m := { (sift T opts (args.fields level)).2 with extras := 1 }
            ignoreList := ignores.store static.ignoreList }
        (result, some (result, text))
      | none =>
        let result : ExtraLogMeta := { static with m := (sift T opts (args.fields level)).2 }
        (result, some (result, text)) := by
  unfold logCall
  simp only [message, leveled, passes, if_true]

theorem logCall_unlogged {T : FilterTable} {opts : Opts} (static : ExtraLogMeta) {args : LogArgs}
    (unlogged : ¬ args.Logged T opts) : (logCall T opts static args).2 = none := by
  unfold logCall
  split
  · rename_i text level message leveled
    simp only
    split
    · rename_i passes
      exact absurd ⟨by simp [message], level, leveled, passes⟩ unlogged
    · rfl
  · rfl

theorem fields_fresh (args : LogArgs) (level : LevelMask) : (args.fields level).Fresh :=
  ⟨rfl, fun _ => rfl⟩

/-- What a call hands on is routed by the rules, whatever was called before it. -/
theorem logged_writes {T : FilterTable} (reachable : T.Reachable) (opts : Opts)
    (registered : TargetId → Bool) (earlier : List LogArgs) {args : LogArgs} {x : ExtraLogMeta}
    {text : List Byte}
    (hands : (logCall T opts (staticAfter T opts earlier) args).2 = some (x, text)) :
    (siftAndRoute T opts registered true x).map (fun s => (s.target, s.filter)) =
      T.rules.writes opts registered x.m.tag x.m.level x.m.origin x.effectiveIgnores := by
  have wf := FilterTable.reachable_wf reachable
  have static := staticAfter_terminated T opts earlier
  have after := logCall_terminated T opts static args
  by_cases logged : args.Logged T opts
  · obtain ⟨isText, level, leveled, passes⟩ := logged
    obtain ⟨s, message⟩ := Option.isSome_iff_exists.mp isText
    have fresh := fields_fresh args level
    rw [logCall_logged _ args message leveled passes] at hands after
    cases extras : args.extras with
    | none =>
      rw [extras] at hands
      obtain ⟨rfl, -⟩ := Prod.mk.inj (Option.some.inj hands)
      let y : ExtraLogMeta := { staticAfter T opts earlier with m := args.fields level }
      exact sifted_writes (x := y) wf opts registered fresh static passes
    | some ignores =>
      rw [extras] at hands after
      obtain ⟨rfl, -⟩ := Prod.mk.inj (Option.some.inj hands)
      let y : ExtraLogMeta :=
        { m := { args.fields level with extras := 1 }
          ignoreList := ignores.store (staticAfter T opts earlier).ignoreList }
      have sifted := sift_extras T opts (args.fields level) 1
      have routed := sifted_writes (x := y) wf opts registered fresh after
        ((congrArg Prod.fst sifted).trans passes)
      rwa [show sift T opts y.m = _ from sifted] at routed
  · rw [logCall_unlogged _ logged] at hands
    cases hands

theorem enqueuedFor_logged {T : FilterTable} {opts : Opts} (earlier : List LogArgs) {args : LogArgs}
    {text : List Byte} {level : LevelMask} (message : args.message = some text)
    (leveled : args.level = some level) (passes : (sift T opts (args.fields level)).1 = true) :
    enqueuedFor T opts earlier args =
      some (level, args.tag.getD 0, args.origin.getD 0,
        match args.extras with
        | some ignores =>
          (⟨noMetaData, ignores.store (staticAfter T opts earlier).ignoreList⟩ : ExtraLogMeta).ignores
        | none => []) := by
  obtain ⟨tag, levels, origin, -, extras⟩ := sift_keeps T opts (args.fields level)
  unfold enqueuedFor
  rw [logCall_logged _ args message leveled passes]
  cases args.extras with
  | some ignores =>
    simp only [Option.map_some, tag, levels, origin]
    rfl
  | none =>
    have bare : ((sift T opts (args.fields level)).2).hasIgnores = false := by
      rw [LogMeta.hasIgnores, extras]
      rfl
    simp only [Option.map_some, tag, levels, origin, ExtraLogMeta.effectiveIgnores, bare]
    rfl

/-- Earlier calls show in a call exactly when it is logged with an extras object
    whose ignores is neither an array nor a number. -/
theorem log_isolated_iff (T : FilterTable) (opts : Opts) (args : LogArgs) :
    (∀ earlier earlier', enqueuedFor T opts earlier args = enqueuedFor T opts earlier' args) ↔
      ¬ (args.Logged T opts ∧ args.extras = some .other) := by
  constructor
  · rintro same ⟨⟨isText, level, leveled, passes⟩, other⟩
    obtain ⟨text, message⟩ := Option.isSome_iff_exists.mp isText
    -- the same call with a list of its own, before this one
    let before : LogArgs := { args with extras := some (.uint32 7) }
    have differs := same [] [before]
    rw [enqueuedFor_logged _ message leveled passes, enqueuedFor_logged _ message leveled passes]
      at differs
    have left : staticAfter T opts [before] = (logCall T opts initialStatic before).1 := rfl
    rw [left, logCall_logged initialStatic before message leveled passes] at differs
    simp only [other, before, Option.some.injEq, Prod.mk.injEq, true_and] at differs
    have lists : (⟨noMetaData, initialStatic.ignoreList⟩ : ExtraLogMeta).ignores =
        (⟨noMetaData, (JsIgnores.uint32 7).store initialStatic.ignoreList⟩ : ExtraLogMeta).ignores :=
      differs
    exact absurd lists (by decide)
  · intro own earlier earlier'
    by_cases logged : args.Logged T opts
    · obtain ⟨isText, level, leveled, passes⟩ := logged
      obtain ⟨text, message⟩ := Option.isSome_iff_exists.mp isText
      rw [enqueuedFor_logged _ message leveled passes, enqueuedFor_logged _ message leveled passes]
      cases extras : args.extras with
      | none => rfl
      | some ignores =>
        have notOther : ignores ≠ .other := by
          rintro rfl
          exact own ⟨⟨isText, level, leveled, passes⟩, extras⟩
        simp only
        rw [store_own notOther noMetaData noMetaData _ (staticAfter T opts earlier').ignoreList]
    · simp [enqueuedFor, logCall_unlogged _ logged]

def plainCall (extras : JsIgnores) : LogArgs :=
  { message := some [97], level := some 1, extras := some extras }

/-- With an empty object as extras the call inherits the list of the one before. -/
theorem empty_extras_inherit :
    ¬ ∀ (T : FilterTable) (opts : Opts) (earlier earlier' : List LogArgs) (args : LogArgs),
      enqueuedFor T opts earlier args = enqueuedFor T opts earlier' args := by
  intro isolated
  have same := isolated (.init fun _ => .new) {} [] [plainCall (.uint32 7)] (plainCall .other)
  have without : enqueuedFor (.init fun _ => .new) {} [] (plainCall .other) = some (1, 0, 0, []) := by
    decide
  have inherited : enqueuedFor (.init fun _ => .new) {} [plainCall (.uint32 7)] (plainCall .other) =
      some (1, 0, 0, [7]) := by
    decide
  rw [without, inherited] at same
  simp at same

example : (JsIgnores.array (List.range 12 |>.map fun n => UInt32.ofNat (n + 1))).store (fun _ => 0) 10 =
    0 := by decide

end GreaseLog
