import GreaseLog.FilterTable

/- sift and the routing loop of handleInternalCmd (logger.cc). The NEW_LOG and
   the WRITE_TARGET_OVERFLOW branch contain the same loop; it reads the meta, the
   filter lists and which targets exist, none of which its writes change, so it
   is given here as the list of the calls it makes. -/
namespace GreaseLog

def DEFAULT_BUFFER_SIZE : Nat := 2000

structure Opts where
  bufferSize : Nat := DEFAULT_BUFFER_SIZE
  levelFilterOutMask : LevelMask := 0
  defaultFilterOut : Bool := false
  deriving DecidableEq

/-- sift: whether to log, and the meta with the lists it found. -/
def sift (T : FilterTable) (opts : Opts) (f : LogMeta) : Bool × LogMeta :=
  if opts.levelFilterOutMask &&& f.level ≠ 0 then (false, f)
  else if f.hasCache then (true, f)
  else
    let f := { f with cachedHash := getHashes f.tag f.origin }
    match T.filterHashTable.lookup (f.cachedHash 0) with
    | some list => (true, f.setList 0 list)
    | none =>
      match T.filterHashTable.lookup (f.cachedHash 1) with
      | some list => (true, f.setList 1 list)
      | none =>
        match T.filterHashTable.lookup (f.cachedHash 2) with
        | some list => (true, f.setList 2 list)
        | none =>
          match T.filterHashTable.lookup 0 with
          | some list => (true, f.setList 3 list)
          | none => (!opts.defaultFilterOut, f)

def defaultFilter : Filter := {}

/-- A call that the loop makes: the target (0 is defaultTarget) and the filter
    with the place it lies in (none is &defaultFilter). -/
structure Selected where
  target : TargetId
  slot : Option (ListPtr × Nat)
  filter : Filter
  deriving DecidableEq

/-- while(LIST->list[n].id != 0), as far as it stays inside the array. -/
def visit (n : Nat) : List Filter → List (Nat × Filter)
  | [] => []
  | f :: rest => if f.id = 0 then [] else (n, f) :: visit (n + 1) rest

/-- A slot with id 0 ends the loop; without one it reads past the array. -/
def FilterList.Stops (l : FilterList) : Prop := ∃ f ∈ l.list, f.id = 0

def scanIgnores (target : TargetId) : List TargetId → Bool
  | [] => false
  | ignored :: rest =>
    if ignored = 0 then false else if ignored = target then true else scanIgnores target rest

def ExtraLogMeta.ignoring (x : ExtraLogMeta) (target : TargetId) : Bool :=
  x.m.hasIgnores && scanIgnores target ((List.ofFn x.ignoreList).take MAX_IGNORE_LIST)

def Filter.applies (f : Filter) (level : LevelMask) : Bool :=
  f.levelMask &&& level != 0 && !f.disabled

section
variable (T : FilterTable) (registered : TargetId → Bool) (hasDefault : Bool) (x : ExtraLogMeta)

/-- The body of the loop: the call it makes, and whether it sets `wrote`. -/
def routeFilter (p : ListPtr) (n : Nat) (f : Filter) : List Selected × Bool :=
  if f.applies x.m.level then
    if f.targetId = 0 then (if hasDefault then [⟨0, some (p, n), f⟩] else [], true)
    else if !x.ignoring f.targetId && registered f.targetId then
      ([⟨f.targetId, some (p, n), f⟩], true)
    else ([], false)
  else ([], false)

def routeList (p : ListPtr) : List Selected × Bool :=
  if p ≠ 0 ∧ (T.heap p).valid x.m.level then
    let calls := (visit 0 (T.heap p).list).map fun v =>
      routeFilter registered hasDefault x p v.1 v.2
    (calls.flatMap Prod.fst, calls.any Prod.snd)
  else ([], false)

def route : List Selected :=
  let calls := (List.ofFn x.m.cachedLists).map (routeList T registered hasDefault x)
  calls.flatMap Prod.fst ++
    if !calls.any Prod.snd && hasDefault then [⟨DEFAULT_TARGET, none, defaultFilter⟩] else []

end

def LogMeta.consulted (m : LogMeta) : List ListPtr := (List.ofFn m.cachedLists).filter (· != 0)

/-- sift when the message is logged, then sift and the loop when it is handled. -/
def siftAndRoute (T : FilterTable) (opts : Opts) (registered : TargetId → Bool) (hasDefault : Bool)
    (x : ExtraLogMeta) : List Selected :=
  let (logged, m) := sift T opts x.m
  if logged then
    let (again, m) := sift T opts m
    if again then route T registered hasDefault { x with m := m } else []
  else []

/-! What the lists of a table say about a message. -/

abbrev Rules := TagId → OriginId → Option (List Filter)

def FilterTable.rules (T : FilterTable) : Rules := fun tag origin =>
  (T.filterHashTable.lookup (filterhash tag origin)).map fun p => (T.heap p).filters

def ruleKeys (tag : TagId) (origin : OriginId) : List (TagId × OriginId) :=
  [(tag, origin), (0, origin), (tag, 0), (0, 0)]

def Rules.first (R : Rules) (tag : TagId) (origin : OriginId) : Option (List Filter) :=
  (ruleKeys tag origin).findSome? fun k => R k.1 k.2

def Rules.selects (registered : TargetId → Bool) (level : LevelMask) (ignores : List TargetId)
    (f : Filter) : Bool :=
  f.applies level &&
    (f.targetId == 0 || registered f.targetId && !ignores.contains f.targetId)

def Rules.writes (R : Rules) (opts : Opts) (registered : TargetId → Bool) (tag : TagId)
    (level : LevelMask) (origin : OriginId) (ignores : List TargetId) :
    List (TargetId × Filter) :=
  if level &&& opts.levelFilterOutMask ≠ 0 then []
  else
    match R.first tag origin with
    | none => if opts.defaultFilterOut then [] else [(DEFAULT_TARGET, defaultFilter)]
    | some filters =>
      let writes := (filters.filter (selects registered level ignores)).map fun f => (f.targetId, f)
      if writes.isEmpty then [(DEFAULT_TARGET, defaultFilter)] else writes

def ExtraLogMeta.effectiveIgnores (x : ExtraLogMeta) : List TargetId :=
  if x.m.hasIgnores then x.ignores else []

end GreaseLog
