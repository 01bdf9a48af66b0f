import GreaseLog.FilterRegistry
import GreaseLog.KhashOrder
import GreaseLog.Routing

/- filterHashTable as it is, a TW_KHash_32 of packed hashes: AddFilter, ModifyFilter and
   sift on it, against the same calls on a finite map. -/
namespace GreaseLog

structure KFilters where
  filterHashTable : TwKHash32 FilterHash ListPtr
  heap : ListPtr → FilterList
  nextFilterId : FilterId

namespace KFilters

def init (heap : ListPtr → FilterList) : Option KFilters := do
  return ⟨← TwKHash32.init hash_func 0, heap, 1⟩

def findOrNew (K : KFilters) (fresh : ListPtr) (hash : FilterHash) : Option (KFilters × ListPtr) := do
  match ← K.filterHashTable.find hash_func hash with
  | some p => return (K, p)
  | none =>
    let (table, _) ← K.filterHashTable.addNoreplace hash_func hash fresh
    return ({ K with filterHashTable := table, heap := Function.update K.heap fresh .new }, fresh)

def _addFilter (K : KFilters) (fresh : ListPtr) (t : TargetId) (origin : OriginId) (tag : TagId)
    (level : LevelMask) (preformat postformatpremsg postformat : LogLabel) :
    Option (KFilters × FilterId × Bool) := do
  let id := K.nextFilterId
  let (K, list) ← { K with nextFilterId := id + 1 }.findOrNew fresh (filterhash tag origin)
  let f : Filter :=
    { id := id, levelMask := level, targetId := t, preFormat := preformat,
      postFormatPreMsg := postformatpremsg, postFormat := postformat }
  match (K.heap list).add f with
  | some l => return ({ K with heap := Function.update K.heap list l }, id, true)
  | none => return (K, id, false)

def _lookupFilter (K : KFilters) (origin : OriginId) (tag : TagId) (id : FilterId) :
    Option (Option (ListPtr × Nat)) := do
  match ← K.filterHashTable.find hash_func (filterhash tag origin) with
  | none => return none
  | some p => return ((K.heap p).find id).map fun n => (p, n)

def modifySlot (K : KFilters) (p : ListPtr) (n : Nat) (change : Filter → Filter) : KFilters :=
  { K with heap := Function.update K.heap p ((K.heap p).modify n change) }

def setDisable (K : KFilters) (args : FilterArgs) (id : FilterId) : Option KFilters := do
  if args.disable = some true then
    match ← K._lookupFilter (args.origin.getD 0) (args.tag.getD 0) id with
    | some (p, n) => return K.modifySlot p n fun f => { f with disabled := true }
    | none => return K
  else return K

def addFilter (K : KFilters) (fresh : ListPtr) (args : FilterArgs) :
    Option (KFilters × Except String (Option FilterId)) := do
  if args.mask = .other then return (K, .error "addFilter: bad parameters (mask)")
  else if args.tag = none ∧ args.origin = none ∧ args.mask = .undefined then
    return (K, .error "addFilter: bad parameters")
  else
    let (K, id, added) ← K._addFilter fresh (args.target.getD 0) (args.origin.getD 0)
      (args.tag.getD 0) args.levels (args.pre.bind LogLabel.fromUTF8)
      (args.postFmtPreMsg.bind LogLabel.fromUTF8) (args.post.bind LogLabel.fromUTF8)
    let K ← K.setDisable args id
    return (K, .ok (if added then some id else none))

def modifyFilter (K : KFilters) (args : FilterArgs) : Option (KFilters × Except String Bool) := do
  match args.mask, args.id with
  | .uint32 _, _ => return (K, .error "modifyFilter: bad parameters... can't modify mask")
  | _, none => return (K, .error "modifyFilter: bad parameters")
  | _, some id =>
    if id = 0 then return (K, .error "modifyFilter: bad parameters")
    else
      match ← K._lookupFilter (args.origin.getD 0) (args.tag.getD 0) id with
      | none => return (K, .ok false)
      | some (p, n) =>
        return (K.modifySlot p n fun f =>
          { f with disabled := args.disable.getD f.disabled, targetId := args.target.getD f.targetId },
          .ok true)

def sift (K : KFilters) (opts : Opts) (f : LogMeta) : Option (Bool × LogMeta) := do
  if opts.levelFilterOutMask &&& f.level ≠ 0 then return (false, f)
  else if f.hasCache then return (true, f)
  else
    let f := { f with cachedHash := getHashes f.tag f.origin }
    if let some list ← K.filterHashTable.find hash_func (f.cachedHash 0) then
      return (true, f.setList 0 list)
    if let some list ← K.filterHashTable.find hash_func (f.cachedHash 1) then
      return (true, f.setList 1 list)
    if let some list ← K.filterHashTable.find hash_func (f.cachedHash 2) then
      return (true, f.setList 2 list)
    if let some list ← K.filterHashTable.find hash_func 0 then
      return (true, f.setList 3 list)
    return (!opts.defaultFilterOut, f)

end KFilters

inductive FilterUse where
  | addFilter : ListPtr → FilterArgs → FilterUse
  | modifyFilter : FilterArgs → FilterUse
  | sift : Opts → LogMeta → FilterUse

inductive FilterAnswer where
  | added : Except String (Option FilterId) → FilterAnswer
  | modified : Except String Bool → FilterAnswer
  | sifted : Bool → LogMeta → FilterAnswer

def KFilters.use (K : KFilters) : FilterUse → Option (KFilters × FilterAnswer)
  | .addFilter fresh args => (K.addFilter fresh args).map fun r => (r.1, .added r.2)
  | .modifyFilter args => (K.modifyFilter args).map fun r => (r.1, .modified r.2)
  | .sift opts f => (K.sift opts f).map fun r => (K, .sifted r.1 r.2)

def KFilters.runs (K : KFilters) : List FilterUse → Option (KFilters × List FilterAnswer)
  | [] => some (K, [])
  | u :: us => do
    let (K, answer) ← K.use u
    let (K, answers) ← K.runs us
    return (K, answer :: answers)

def FilterTable.use (T : FilterTable) : FilterUse → FilterTable
  | .addFilter fresh args => (T.addFilter fresh args).1
  | .modifyFilter args => (T.modifyFilter args).1
  | .sift _ _ => T

def FilterTable.answer (T : FilterTable) : FilterUse → FilterAnswer
  | .addFilter fresh args => .added (T.addFilter fresh args).2
  | .modifyFilter args => .modified (T.modifyFilter args).2
  | .sift opts f => .sifted (GreaseLog.sift T opts f).1 (GreaseLog.sift T opts f).2

def FilterTable.answers (T : FilterTable) : List FilterUse → List FilterAnswer
  | [] => []
  | u :: us => T.answer u :: FilterTable.answers (T.use u) us

/-- The lists are counted in 32 bits. -/
def FilterTable.UseFits (T : FilterTable) (u : FilterUse) : Prop :=
  (T.use u).filterHashTable.keys.length ≤ 2 ^ 30

instance (T : FilterTable) (u : FilterUse) : Decidable (T.UseFits u) :=
  inferInstanceAs (Decidable (_ ≤ _))

namespace KFilters

structure Simulates (K : KFilters) (T : FilterTable) : Prop where
  table : Represents hash_func K.filterHashTable.KHASHMAP T.filterHashTable
  heap : K.heap = T.heap
  nextFilterId : K.nextFilterId = T.nextFilterId

variable {K : KFilters} {T : FilterTable}

theorem find_simulates (sim : K.Simulates T) (hash : FilterHash) :
    K.filterHashTable.find hash_func hash = some (T.filterHashTable.lookup hash) :=
  (represents_search sim.table hash).find

theorem findOrNew_simulates (sim : K.Simulates T) (fresh : ListPtr) (hash : FilterHash)
    (fits : (T.findOrNew fresh hash).1.filterHashTable.keys.length ≤ 2 ^ 30) :
    ∃ K', K.findOrNew fresh hash = some (K', (T.findOrNew fresh hash).2) ∧
      K'.Simulates (T.findOrNew fresh hash).1 := by
  have find := find_simulates sim hash
  cases found : T.filterHashTable.lookup hash with
  | some p =>
    rw [found] at find
    simp only [FilterTable.findOrNew, found]
    exact ⟨K, by simp [findOrNew, find], sim⟩
  | none =>
    rw [found] at find
    simp only [FilterTable.findOrNew, found] at fits ⊢
    have few : (if (T.filterHashTable.lookup hash).isSome then T.filterHashTable
        else T.filterHashTable.insert hash fresh).keys.length ≤ 2 ^ 30 := by
      rw [found]
      exact fits
    obtain ⟨table, k, run, holds, _⟩ := represents_addUnder sim.table hash fresh few
    rw [found] at holds
    refine ⟨⟨table, Function.update K.heap fresh .new, K.nextFilterId⟩, ?_, holds, ?_, sim.nextFilterId⟩
    · simp [findOrNew, find, TwKHash32.addNoreplace, run]
    · rw [sim.heap]

theorem addRaw_simulates (sim : K.Simulates T) (fresh : ListPtr) (t : TargetId) (origin : OriginId)
    (tag : TagId) (level : LevelMask) (pre mid post : LogLabel)
    (fits : (T._addFilter fresh t origin tag level pre mid post).1.filterHashTable.keys.length ≤ 2 ^ 30) :
    ∃ K', K._addFilter fresh t origin tag level pre mid post =
        some (K', (T._addFilter fresh t origin tag level pre mid post).2) ∧
      K'.Simulates (T._addFilter fresh t origin tag level pre mid post).1 := by
  have counted : ({ K with nextFilterId := K.nextFilterId + 1 } : KFilters).Simulates
      { T with nextFilterId := T.nextFilterId + 1 } :=
    ⟨sim.table, sim.heap, by rw [sim.nextFilterId]⟩
  have few : ({ T with nextFilterId := T.nextFilterId + 1 }.findOrNew fresh
      (filterhash tag origin)).1.filterHashTable.keys.length ≤ 2 ^ 30 := by
    simp only [FilterTable._addFilter] at fits
    split at fits
    · exact fits
    · exact fits
  obtain ⟨K', run, sim'⟩ := findOrNew_simulates counted fresh (filterhash tag origin) few
  simp only [_addFilter, Option.bind_eq_bind]
  rw [run]
  simp only [Option.bind_some, FilterTable._addFilter, sim.nextFilterId, sim'.heap]
  cases added : FilterList.add _ _ with
  | some l => exact ⟨_, rfl, sim'.table, by rw [← sim'.heap], sim'.nextFilterId⟩
  | none => exact ⟨_, rfl, sim'⟩

theorem lookupFilter_simulates (sim : K.Simulates T) (origin : OriginId) (tag : TagId) (id : FilterId) :
    K._lookupFilter origin tag id = some (T._lookupFilter origin tag id) := by
  have find := find_simulates sim (filterhash tag origin)
  simp only [_lookupFilter, FilterTable._lookupFilter, find, sim.heap, Option.bind_eq_bind,
    Option.bind_some]
  cases T.filterHashTable.lookup (filterhash tag origin) <;> rfl

theorem modifySlot_simulates (sim : K.Simulates T) (p : ListPtr) (n : Nat) (change : Filter → Filter) :
    (K.modifySlot p n change).Simulates (T.modifySlot p n change) where
  table := sim.table
  heap := by simp only [modifySlot, FilterTable.modifySlot, sim.heap]
  nextFilterId := sim.nextFilterId

theorem setDisable_simulates (sim : K.Simulates T) (args : FilterArgs) (id : FilterId) :
    ∃ K', K.setDisable args id = some K' ∧ K'.Simulates (T.setDisable args id) := by
  have lookup := lookupFilter_simulates sim (args.origin.getD 0) (args.tag.getD 0) id
  unfold setDisable FilterTable.setDisable
  split
  · rw [lookup]
    cases T._lookupFilter (args.origin.getD 0) (args.tag.getD 0) id with
    | none => exact ⟨K, rfl, sim⟩
    | some slot => exact ⟨_, rfl, modifySlot_simulates sim slot.1 slot.2 _⟩
  · exact ⟨K, rfl, sim⟩

theorem setDisable_table (T : FilterTable) (args : FilterArgs) (id : FilterId) :
    (T.setDisable args id).filterHashTable = T.filterHashTable := by
  unfold FilterTable.setDisable
  split
  · split
    · rfl
    · rfl
  · rfl

theorem addFilter_simulates (sim : K.Simulates T) (fresh : ListPtr) (args : FilterArgs)
    (fits : (T.addFilter fresh args).1.filterHashTable.keys.length ≤ 2 ^ 30) :
    ∃ K', K.addFilter fresh args = some (K', (T.addFilter fresh args).2) ∧
      K'.Simulates (T.addFilter fresh args).1 := by
  by_cases good : args.Addable
  · rw [addFilter_addable T fresh good, setDisable_table] at fits
    rw [addFilter_addable T fresh good]
    obtain ⟨K', run, sim'⟩ := addRaw_simulates sim fresh _ _ _ _ _ _ _ fits
    obtain ⟨K'', run', sim''⟩ := setDisable_simulates sim' args (T.addRaw fresh args).2.1
    have done : K.addFilter fresh args = (K'.setDisable args (T.addRaw fresh args).2.1).bind
        fun K'' => some (K'', .ok (if (T.addRaw fresh args).2.2 then some (T.addRaw fresh args).2.1
          else none)) := by
      unfold addFilter
      rw [if_neg good.1, if_neg good.2]
      exact congrArg (Option.bind · _) run
    exact ⟨K'', by rw [done, run', Option.bind_some], sim''⟩
  · unfold addFilter FilterTable.addFilter
    by_cases mask : args.mask = .other
    · rw [if_pos mask, if_pos mask]
      exact ⟨K, rfl, sim⟩
    · have bare : args.tag = none ∧ args.origin = none ∧ args.mask = .undefined :=
        by_contra fun given => good ⟨mask, given⟩
      rw [if_neg mask, if_neg mask, if_pos bare, if_pos bare]
      exact ⟨K, rfl, sim⟩

theorem modifyFilter_simulates (sim : K.Simulates T) (args : FilterArgs) :
    ∃ K', K.modifyFilter args = some (K', (T.modifyFilter args).2) ∧
      K'.Simulates (T.modifyFilter args).1 := by
  have lookup := lookupFilter_simulates sim (args.origin.getD 0) (args.tag.getD 0)
  unfold modifyFilter FilterTable.modifyFilter
  cases mask : args.mask with
  | uint32 _ => exact ⟨K, rfl, sim⟩
  | undefined | other =>
    cases named : args.id with
    | none => exact ⟨K, rfl, sim⟩
    | some id =>
      by_cases zero : id = 0
      · simp only [if_pos zero]
        exact ⟨K, rfl, sim⟩
      · simp only [if_neg zero, lookup]
        cases T._lookupFilter (args.origin.getD 0) (args.tag.getD 0) id with
        | none => exact ⟨K, rfl, sim⟩
        | some slot => exact ⟨_, rfl, modifySlot_simulates sim slot.1 slot.2 _⟩

theorem sift_simulates (sim : K.Simulates T) (opts : Opts) (f : LogMeta) :
    K.sift opts f = some (GreaseLog.sift T opts f) := by
  unfold sift GreaseLog.sift
  split
  · rfl
  · split
    · rfl
    · simp only [find_simulates sim, Option.bind_eq_bind, Option.bind_some]
      cases T.filterHashTable.lookup (getHashes f.tag f.origin 0) with
      | some list => rfl
      | none =>
        cases T.filterHashTable.lookup (getHashes f.tag f.origin 1) with
        | some list => rfl
        | none =>
          cases T.filterHashTable.lookup (getHashes f.tag f.origin 2) with
          | some list => rfl
          | none => cases T.filterHashTable.lookup 0 <;> rfl

theorem use_simulates (sim : K.Simulates T) {u : FilterUse} (fits : T.UseFits u) :
    ∃ K', K.use u = some (K', T.answer u) ∧ K'.Simulates (T.use u) := by
  cases u with
  | addFilter fresh args =>
    obtain ⟨K', run, sim'⟩ := addFilter_simulates sim fresh args fits
    exact ⟨K', by simp only [use, run, Option.map_some, FilterTable.answer], sim'⟩
  | modifyFilter args =>
    obtain ⟨K', run, sim'⟩ := modifyFilter_simulates sim args
    exact ⟨K', by simp only [use, run, Option.map_some, FilterTable.answer], sim'⟩
  | sift opts f =>
    exact ⟨K, by simp only [use, sift_simulates sim, Option.map_some, FilterTable.answer], sim⟩

theorem runs_simulate {us : List FilterUse} (sim : K.Simulates T)
    (fits : Runs.Checked FilterTable.UseFits FilterTable.use T us) :
    ∃ K', K.runs us = some (K', T.answers us) ∧ K'.Simulates (us.foldl FilterTable.use T) := by
  induction us generalizing K T with
  | nil => exact ⟨K, rfl, sim⟩
  | cons u us ih =>
    obtain ⟨K', run, sim'⟩ := use_simulates sim fits.1
    obtain ⟨K'', run', sim''⟩ := ih sim' fits.2
    exact ⟨K'', by simp [runs, run, run', FilterTable.answers], sim''⟩

theorem init_simulates (heap : ListPtr → FilterList) :
    ∃ K, KFilters.init heap = some K ∧ K.Simulates (.init heap) := by
  have int : 0 < 2 ^ 31 := by decide
  obtain ⟨table, made, empty⟩ := @init_represents FilterHash ListPtr _ hash_func 0 int
  exact ⟨⟨table, heap, 1⟩, by simp [KFilters.init, made], empty, rfl, rfl⟩

end KFilters

/-- Whatever filters are added, changed and sifted through, in any order: with its table in the
    arrays, where all hashes probe from the same bucket, the logger answers as with a map,
    and the lists are the same. -/
theorem filters_as_map (heap : ListPtr → FilterList) {us : List FilterUse}
    (fits : Runs.Checked FilterTable.UseFits FilterTable.use (.init heap) us) :
    ∃ K K', KFilters.init heap = some K ∧
      K.runs us = some (K', (FilterTable.init heap).answers us) ∧
      K'.heap = (us.foldl FilterTable.use (.init heap)).heap := by
  obtain ⟨K, made, sim⟩ := KFilters.init_simulates heap
  obtain ⟨K', run, sim'⟩ := KFilters.runs_simulate sim fits
  exact ⟨K, K', made, run, sim'.heap⟩

/-- Two lists, a filter turned off and a message for each of them. -/
theorem filters_as_map_two :
    let us : List FilterUse := [.addFilter 1 { tag := some 3, target := some 2 },
      .addFilter 2 { origin := some 5, mask := .uint32 4 },
      .modifyFilter { tag := some 3, id := some 1, disable := some true },
      .sift {} ⟨3, 1, 5, 0, 0, fun _ => 0, fun _ => 0⟩,
      .sift {} ⟨0, 4, 5, 0, 0, fun _ => 0, fun _ => 0⟩]
    ∃ K K', KFilters.init (fun _ => .new) = some K ∧
      K.runs us = some (K', (FilterTable.init fun _ => .new).answers us) ∧
      K'.heap = (us.foldl FilterTable.use (.init fun _ => .new)).heap :=
  filters_as_map (fun _ => .new) (by decide)

end GreaseLog
