import Mathlib.Data.Finset.Card
import Mathlib.Data.List.AList
import Mathlib.Order.Interval.Finset.Nat

/- The ids of tag and origin names (index.js): one table for each, kept in a plain
   JavaScript object with a counter beside it. -/
namespace GreaseLog

abbrev JsString := List UInt16

def jsString (s : String) : JsString := s.toList.map fun c => c.toNat.toUInt16

def MAX_TAG_ORIGIN_VALUE : Nat := 0xFF00

/-- The properties every plain object inherits. Each of them is truthy. -/
def objectPrototype : List JsString :=
  ["constructor", "toString", "toLocaleString", "valueOf", "hasOwnProperty", "isPrototypeOf",
    "propertyIsEnumerable", "__defineGetter__", "__defineSetter__", "__lookupGetter__",
    "__lookupSetter__", "__proto__"].map jsString

/-- What a lookup in the object, and a call that has returned, gives. -/
inductive JsValue where
  | undefined
  | number (n : Nat)
  | inherited (property : JsString)
  deriving DecidableEq

def JsValue.truthy : JsValue → Bool
  | .undefined => false
  | .number n => n != 0
  | .inherited _ => true

/-- TAGS and tagId, or ORIGINS and originId. -/
structure NameTable where
  own : AList fun _ : JsString => Nat := ∅
  nextId : Nat := 1

/-- addTagLabel and addOriginLabel throw unless the id is a Uint32. -/
def addLabel (id : Nat) : Option Unit := if id < 2 ^ 32 then some () else none

namespace NameTable

def get (t : NameTable) (o : JsString) : JsValue :=
  match t.own.lookup o with
  | some id => .number id
  | none => if o ∈ objectPrototype then .inherited o else .undefined

/-- The id is kept before its label is added, which may throw. -/
def keep (clientOnly : Bool) (t : NameTable) (o : JsString) (id : Nat) :
    NameTable × Option JsValue :=
  let t := { t with own := t.own.insert o id }
  if clientOnly then (t, some (.number id))
  else (t, (addLabel id).map fun _ => .number id)

/-- The common body of getTagId and getOriginId. -/
def getId (clientOnly : Bool) (t : NameTable) (o : JsString) (val : Option Nat) :
    NameTable × Option JsValue :=
  let ret := t.get o
  if ret.truthy then (t, some ret)
  else
    match val with
    | some val => t.keep clientOnly o val
    | none =>
      let t := if t.nextId ≥ MAX_TAG_ORIGIN_VALUE then { t with nextId := 1 } else t
      { t with nextId := t.nextId + 1 }.keep clientOnly o t.nextId

end NameTable

structure Names where
  clientOnly : Bool
  tags : NameTable := {}
  origins : NameTable := {}

def Names.getTagId (n : Names) (o : JsString) (val : Option Nat) : Names × Option JsValue :=
  let r := n.tags.getId n.clientOnly o val
  ({ n with tags := r.1 }, r.2)

def Names.getOriginId (n : Names) (o : JsString) (val : Option Nat) : Names × Option JsValue :=
  let r := n.origins.getId n.clientOnly o val
  ({ n with origins := r.1 }, r.2)

structure NameCall where
  name : JsString
  val : Option Nat := none
  deriving DecidableEq

section
variable {State : Type} (get : State → JsString → Option Nat → State × Option JsValue)

def answers (s : State) : List NameCall → List (NameCall × Option JsValue)
  | [] => []
  | c :: calls =>
    let r := get s c.name c.val
    (c, r.2) :: answers r.1 calls

def afterCalls (s : State) (calls : List NameCall) : State :=
  calls.foldl (fun s c => (get s c.name c.val).1) s

end

/-- Explicit ids are special values, each given to one name. -/
structure SpecialIds (calls : List NameCall) : Prop where
  special : ∀ c ∈ calls, ∀ id, c.val = some id → MAX_TAG_ORIGIN_VALUE < id
  oneName : ∀ c ∈ calls, ∀ c' ∈ calls, ∀ id, c.val = some id → c'.val = some id →
    c.name = c'.name

/-- Every call returns a positive integer, the same for one name and different for two. -/
structure Injective (answered : List (NameCall × Option JsValue)) : Prop where
  positive : ∀ a ∈ answered, ∃ id, 0 < id ∧ a.2 = some (.number id)
  distinct : ∀ a ∈ answered, ∀ b ∈ answered, a.1.name = b.1.name ↔ a.2 = b.2

def firstId (calls : List NameCall) (o : JsString) : Option Nat :=
  (calls.find? fun c => c.name = o).bind (·.val)

def automatic (calls : List NameCall) : Finset JsString :=
  (calls.map (·.name)).toFinset.filter fun o => firstId calls o = none

/-- No name is a property of every object, the counter is not reset, and no label is
    refused. -/
structure Numberable (clientOnly : Bool) (calls : List NameCall) : Prop where
  notInherited : ∀ c ∈ calls, c.name ∉ objectPrototype
  few : (automatic calls).card < MAX_TAG_ORIGIN_VALUE
  labelled : clientOnly = true ∨
    ∀ c ∈ calls, ∀ id, firstId calls c.name = some id → id < 2 ^ 32

section
variable {State : Type} {get : State → JsString → Option Nat → State × Option JsValue}

theorem afterCalls_append (s : State) (done rest : List NameCall) :
    afterCalls get s (done ++ rest) = afterCalls get (afterCalls get s done) rest :=
  List.foldl_append

theorem answers_append (s : State) (done rest : List NameCall) :
    answers get s (done ++ rest) =
      answers get s done ++ answers get (afterCalls get s done) rest := by
  induction done generalizing s with
  | nil => rfl
  | cons c done ih =>
    simp only [List.cons_append, answers, ih]
    rfl

theorem mem_answers (s : State) (calls : List NameCall) (a : NameCall × Option JsValue) :
    a ∈ answers get s calls ↔
      ∃ done c rest, calls = done ++ c :: rest ∧
        a = (c, (get (afterCalls get s done) c.name c.val).2) := by
  constructor
  · intro mem
    induction calls generalizing s with
    | nil => simp [answers] at mem
    | cons first calls ih =>
      cases mem with
      | head => exact ⟨[], first, calls, rfl, rfl⟩
      | tail _ mem =>
        obtain ⟨done, c, rest, split, answer⟩ := ih _ mem
        exact ⟨first :: done, c, rest, by rw [split, List.cons_append], answer⟩
  · rintro ⟨done, c, rest, rfl, rfl⟩
    simp [answers_append, answers]

end

theorem firstId_append (done rest : List NameCall) (o : JsString) :
    firstId (done ++ rest) o =
      if o ∈ done.map (·.name) then firstId done o else firstId rest o := by
  simp only [firstId, List.find?_append]
  cases found : done.find? fun c => c.name = o with
  | some c =>
    have mem : o ∈ done.map (·.name) :=
      List.mem_map.mpr ⟨c, List.mem_of_find?_eq_some found, by simpa using List.find?_some found⟩
    rw [if_pos mem]
    rfl
  | none =>
    have fresh : o ∉ done.map (·.name) := by
      simpa [List.find?_eq_none] using found
    rw [if_neg fresh]
    rfl

theorem first_call {calls : List NameCall} {o : JsString} (named : o ∈ calls.map (·.name)) :
    ∃ done c rest, calls = done ++ c :: rest ∧ c.name = o ∧ o ∉ done.map (·.name) ∧
      firstId calls o = c.val := by
  cases found : calls.find? fun c => c.name = o with
  | none =>
    obtain ⟨c, mem, name⟩ := List.mem_map.mp named
    have none := List.find?_eq_none.mp found c mem
    simp [name] at none
  | some c =>
    obtain ⟨name, done, rest, split, earlier⟩ := List.find?_eq_some_iff_append.mp found
    have fresh : o ∉ done.map (·.name) := by
      intro mem
      obtain ⟨d, inDone, same⟩ := List.mem_map.mp mem
      simpa [same] using earlier d inDone
    exact ⟨done, c, rest, split, by simpa using name, fresh, by simp [firstId, found]⟩

theorem automatic_known {done : List NameCall} {c : NameCall}
    (known : c.name ∈ done.map (·.name)) : automatic (done ++ [c]) = automatic done := by
  ext o
  simp only [automatic, Finset.mem_filter, List.mem_toFinset, firstId_append, List.map_append,
    List.mem_append, List.map_cons, List.map_nil, List.mem_singleton]
  constructor
  · rintro ⟨mem | rfl, first⟩
    · exact ⟨mem, by simpa [mem] using first⟩
    · exact ⟨known, by simpa [known] using first⟩
  · rintro ⟨mem, first⟩
    exact ⟨Or.inl mem, by simpa [mem] using first⟩

theorem not_automatic {done : List NameCall} {o : JsString} (fresh : o ∉ done.map (·.name)) :
    o ∉ automatic done := by
  intro mem
  exact fresh (List.mem_toFinset.mp (Finset.mem_filter.mp mem).1)

theorem automatic_fresh {done : List NameCall} {c : NameCall}
    (fresh : c.name ∉ done.map (·.name)) :
    automatic (done ++ [c]) =
      if c.val = none then insert c.name (automatic done) else automatic done := by
  have own : firstId (done ++ [c]) c.name = c.val := by
    rw [firstId_append, if_neg fresh]
    simp [firstId]
  have others : ∀ o ∈ done.map (·.name), firstId (done ++ [c]) o = firstId done o := by
    intro o mem
    rw [firstId_append, if_pos mem]
  ext o
  by_cases same : o = c.name
  · subst same
    have absent := not_automatic fresh
    by_cases val : c.val = none <;> simp [automatic, own, val]
    simpa [automatic] using absent
  · have kept : o ∈ automatic (done ++ [c]) ↔ o ∈ automatic done := by
      simp only [automatic, Finset.mem_filter, List.mem_toFinset, List.map_append, List.mem_append,
        List.map_cons, List.map_nil, List.mem_singleton, same, or_false]
      constructor
      · rintro ⟨mem, first⟩
        exact ⟨mem, (others o mem).symm.trans first⟩
      · rintro ⟨mem, first⟩
        exact ⟨mem, (others o mem).trans first⟩
    rw [kept]
    split <;> simp [same]

theorem automatic_subset (done rest : List NameCall) :
    automatic done ⊆ automatic (done ++ rest) := by
  intro o mem
  simp only [automatic, Finset.mem_filter, List.mem_toFinset] at mem ⊢
  constructor
  · rw [List.map_append]
    exact List.mem_append_left _ mem.1
  · rw [firstId_append, if_pos mem.1]
    exact mem.2

namespace NameTable

variable {clientOnly : Bool} {t : NameTable} {o : JsString}

def labelAnswer (clientOnly : Bool) (id : Nat) : Option JsValue :=
  if clientOnly then some (.number id) else (addLabel id).map fun _ => .number id

theorem labelAnswer_number {id : Nat} (labelled : clientOnly = true ∨ id < 2 ^ 32) :
    labelAnswer clientOnly id = some (.number id) := by
  cases clientOnly with
  | true => rfl
  | false =>
    have small : id < 2 ^ 32 := labelled.resolve_left Bool.false_ne_true
    simp only [labelAnswer, addLabel, if_pos small]
    rfl

theorem labelAnswer_refused {id : Nat} (large : ¬ id < 2 ^ 32) : labelAnswer false id = none := by
  simp only [labelAnswer, addLabel, if_neg large]
  rfl

theorem keep_eq (id : Nat) :
    t.keep clientOnly o id = ({ t with own := t.own.insert o id }, labelAnswer clientOnly id) := by
  cases clientOnly <;> rfl

theorem get_own {id : Nat} (own : t.own.lookup o = some id) : t.get o = .number id := by
  simp [get, own]

theorem getId_own {id : Nat} (own : t.own.lookup o = some id) (positive : 0 < id)
    (val : Option Nat) : t.getId clientOnly o val = (t, some (.number id)) := by
  have truthy : (JsValue.number id).truthy = true := by
    simp [JsValue.truthy, Nat.pos_iff_ne_zero.mp positive]
  simp only [getId, get_own own, if_pos truthy]

theorem getId_inherited (none : t.own.lookup o = none) (inherited : o ∈ objectPrototype)
    (val : Option Nat) : t.getId clientOnly o val = (t, some (.inherited o)) := by
  simp [getId, get, none, inherited, JsValue.truthy]

theorem getId_new (clientOnly : Bool) (none : t.own.lookup o = none) (plain : o ∉ objectPrototype)
    (val : Option Nat) :
    ∃ id next, t.getId clientOnly o val =
        ({ own := t.own.insert o id, nextId := next }, labelAnswer clientOnly id) ∧
      ((val = some id ∧ next = t.nextId) ∨
        (val = .none ∧ next = id + 1 ∧
          id = if t.nextId < MAX_TAG_ORIGIN_VALUE then t.nextId else 1)) := by
  have falsy : (t.get o).truthy = false := by simp [get, none, plain, JsValue.truthy]
  cases val with
  | some id =>
    refine ⟨id, t.nextId, ?_, Or.inl ⟨rfl, rfl⟩⟩
    simp only [getId, falsy, Bool.false_eq_true, if_false, keep_eq]
  | none =>
    refine ⟨_, _, ?_, Or.inr ⟨rfl, rfl, rfl⟩⟩
    simp only [getId, falsy, Bool.false_eq_true, if_false, keep_eq]
    by_cases room : t.nextId < MAX_TAG_ORIGIN_VALUE
    · simp [room, Nat.not_le.mpr room]
    · simp [room, Nat.not_lt.mp room]

structure Kept (t : NameTable) (done : List NameCall) : Prop where
  named : ∀ o id, t.own.lookup o = some id → o ∈ done.map (·.name)
  notInherited : ∀ o ∈ objectPrototype, t.own.lookup o = none
  positive : ∀ o id, t.own.lookup o = some id → 0 < id
  started : 0 < t.nextId
  bounded : t.nextId ≤ MAX_TAG_ORIGIN_VALUE

theorem Kept.new : Kept {} [] := by
  constructor
  · intro o id own
    simp at own
  · intro o _
    exact AList.lookup_empty o
  · intro o id own
    simp at own
  · exact Nat.one_pos
  · decide

theorem lookup_insert {own : AList fun _ : JsString => Nat} {o o' : JsString} {id id' : Nat}
    (found : (own.insert o id).lookup o' = some id') :
    (o' = o ∧ id' = id) ∨ (o' ≠ o ∧ own.lookup o' = some id') := by
  by_cases same : o' = o
  · subst same
    rw [AList.lookup_insert] at found
    exact Or.inl ⟨rfl, (Option.some.inj found).symm⟩
  · rw [AList.lookup_insert_ne same] at found
    exact Or.inr ⟨same, found⟩

theorem kept_step (clientOnly : Bool) {done : List NameCall} (k : t.Kept done) {c : NameCall}
    (special : ∀ id, c.val = some id → MAX_TAG_ORIGIN_VALUE < id) :
    ((t.getId clientOnly c.name c.val).1).Kept (done ++ [c]) := by
  obtain ⟨named, notInherited, positive, started, bounded⟩ := k
  have unchanged : t.Kept (done ++ [c]) := by
    refine ⟨?_, notInherited, positive, started, bounded⟩
    intro o id own
    rw [List.map_append]
    exact List.mem_append_left _ (named o id own)
  cases own : t.own.lookup c.name with
  | some id =>
    rw [getId_own own (positive c.name id own)]
    exact unchanged
  | none =>
    by_cases inherited : c.name ∈ objectPrototype
    · rw [getId_inherited own inherited]
      exact unchanged
    · obtain ⟨id, next, stepped, given⟩ := getId_new clientOnly own inherited c.val
      have bounds : 0 < id ∧ 0 < next ∧ next ≤ MAX_TAG_ORIGIN_VALUE := by
        rcases given with ⟨val, rfl⟩ | ⟨_, rfl, rfl⟩
        · exact ⟨Nat.zero_lt_of_lt (special id val), started, bounded⟩
        · have limit : 1 < MAX_TAG_ORIGIN_VALUE := by decide
          split <;> omega
      rw [stepped]
      constructor
      · intro o id' found
        rcases lookup_insert found with ⟨rfl, _⟩ | ⟨_, found⟩
        · simp
        · rw [List.map_append]
          exact List.mem_append_left _ (named o id' found)
      · intro o mem
        have different : o ≠ c.name := by
          intro same
          exact inherited (same ▸ mem)
        rw [AList.lookup_insert_ne different]
        exact notInherited o mem
      · intro o id' found
        rcases lookup_insert found with ⟨_, rfl⟩ | ⟨_, found⟩
        · exact bounds.1
        · exact positive o id' found
      · exact bounds.2.1
      · exact bounds.2.2

theorem getId_keeps {name : JsString} {id : Nat} (own : t.own.lookup name = some id)
    (positive : 0 < id) (val : Option Nat) :
    (t.getId clientOnly o val).1.own.lookup name = some id := by
  by_cases same : name = o
  · subst same
    rw [getId_own own positive]
    exact own
  · have insert : ∀ other, (t.own.insert o other).lookup name = some id := by
      intro other
      rw [AList.lookup_insert_ne same]
      exact own
    simp only [getId, keep_eq]
    split
    · exact own
    · cases val with
      | some val => exact insert val
      | none =>
        simp only
        split <;> exact insert _

/-- The table has answered every name with an id of its own, and the ids of the calls lie
    above those of the counter. -/
structure Numbered (t : NameTable) (done : List NameCall) : Prop extends t.Kept done where
  answered : ∀ o ∈ done.map (·.name), ∃ id, t.own.lookup o = some id
  counted : ∀ o id, t.own.lookup o = some id → id ≤ MAX_TAG_ORIGIN_VALUE → id < t.nextId
  special : ∀ o id, t.own.lookup o = some id → MAX_TAG_ORIGIN_VALUE < id →
    ∃ c ∈ done, c.name = o ∧ c.val = some id
  distinct : ∀ o o' id, t.own.lookup o = some id → t.own.lookup o' = some id → o = o'
  nextId_eq : t.nextId = (automatic done).card + 1

theorem Numbered.new : Numbered {} [] := by
  refine ⟨Kept.new, ?_, ?_, ?_, ?_, ?_⟩
  · intro o mem
    simp at mem
  · intro o id own
    simp at own
  · intro o id own
    simp at own
  · intro o o' id own
    simp at own
  · rfl

theorem numbered_insert {done : List NameCall} (n : t.Numbered done) {c : NameCall} {id next : Nat}
    (kept : ({ own := t.own.insert c.name id, nextId := next } : NameTable).Kept (done ++ [c]))
    (unused : ∀ o, t.own.lookup o ≠ some id) (later : t.nextId ≤ next)
    (counted : id ≤ MAX_TAG_ORIGIN_VALUE → id < next)
    (special : MAX_TAG_ORIGIN_VALUE < id → c.val = some id)
    (nextId_eq : next = (automatic (done ++ [c])).card + 1) :
    ({ own := t.own.insert c.name id, nextId := next } : NameTable).Numbered (done ++ [c]) := by
  refine ⟨kept, ?_, ?_, ?_, ?_, nextId_eq⟩
  · intro o mem
    by_cases same : o = c.name
    · subst same
      exact ⟨id, AList.lookup_insert t.own⟩
    · rw [AList.lookup_insert_ne same]
      rw [List.map_append, List.mem_append] at mem
      rcases mem with mem | mem
      · exact n.answered o mem
      · exact absurd (List.mem_singleton.mp mem) same
  · intro o id' found small
    rcases lookup_insert found with ⟨_, rfl⟩ | ⟨_, found⟩
    · exact counted small
    · exact Nat.lt_of_lt_of_le (n.counted o id' found small) later
  · intro o id' found large
    rcases lookup_insert found with ⟨rfl, rfl⟩ | ⟨_, found⟩
    · exact ⟨c, by simp, rfl, special large⟩
    · obtain ⟨d, mem, same⟩ := n.special o id' found large
      exact ⟨d, List.mem_append_left _ mem, same⟩
  · intro o o' id' found found'
    rcases lookup_insert found with ⟨rfl, rfl⟩ | ⟨_, earlier⟩
    · rcases lookup_insert found' with ⟨rfl, _⟩ | ⟨_, earlier'⟩
      · rfl
      · exact absurd earlier' (unused o')
    · rcases lookup_insert found' with ⟨_, rfl⟩ | ⟨_, earlier'⟩
      · exact absurd earlier (unused o)
      · exact n.distinct o o' id' earlier earlier'

theorem numbered_known {done : List NameCall} (n : t.Numbered done) {c : NameCall} {id : Nat}
    (own : t.own.lookup c.name = some id) (kept : t.Kept (done ++ [c])) :
    t.Numbered (done ++ [c]) := by
  refine ⟨kept, ?_, n.counted, ?_, n.distinct, ?_⟩
  · intro o mem
    rw [List.map_append, List.mem_append] at mem
    rcases mem with mem | mem
    · exact n.answered o mem
    · rw [List.mem_singleton.mp mem]
      exact ⟨id, own⟩
  · intro o id' found large
    obtain ⟨d, mem, same⟩ := n.special o id' found large
    exact ⟨d, List.mem_append_left _ mem, same⟩
  · rw [automatic_known (n.named c.name id own)]
    exact n.nextId_eq

theorem special_unused {done : List NameCall} (n : t.Numbered done) {c : NameCall}
    (ids : SpecialIds (done ++ [c])) (own : t.own.lookup c.name = none) {id : Nat}
    (val : c.val = some id) (o : JsString) : t.own.lookup o ≠ some id := by
  intro found
  have large := ids.special c (by simp) id val
  obtain ⟨d, mem, name, same⟩ := n.special o id found large
  have one := ids.oneName d (List.mem_append_left _ mem) c (by simp) id same val
  rw [← name, one, own] at found
  cases found

/-- A call is answered with the id that its name has from then on. -/
theorem numbered_step {done : List NameCall} (n : t.Numbered done) {c : NameCall}
    (ids : SpecialIds (done ++ [c])) (plain : c.name ∉ objectPrototype)
    (few : (automatic (done ++ [c])).card < MAX_TAG_ORIGIN_VALUE)
    (labelled : clientOnly = true ∨
      ∀ id, firstId (done ++ [c]) c.name = some id → id < 2 ^ 32) :
    ((t.getId clientOnly c.name c.val).1).Numbered (done ++ [c]) ∧
      ∃ id, (t.getId clientOnly c.name c.val).2 = some (.number id) ∧
        (t.getId clientOnly c.name c.val).1.own.lookup c.name = some id := by
  have kept := kept_step clientOnly n.toKept
    (fun id val => ids.special c (by simp) id val)
  cases own : t.own.lookup c.name with
  | some id =>
    rw [getId_own own (n.positive c.name id own)] at kept ⊢
    constructor
    · exact numbered_known n own kept
    · exact ⟨id, rfl, own⟩
  | none =>
    have fresh : c.name ∉ done.map (·.name) := by
      intro mem
      obtain ⟨id, found⟩ := n.answered c.name mem
      rw [own] at found
      cases found
    have first : firstId (done ++ [c]) c.name = c.val := by
      rw [firstId_append, if_neg fresh]
      simp [firstId]
    obtain ⟨id, next, stepped, given⟩ := getId_new clientOnly own plain c.val
    rw [stepped] at kept ⊢
    rcases given with ⟨val, rfl⟩ | ⟨val, rfl, rfl⟩
    · have large := ids.special c (by simp) id val
      have labelAnswer := labelAnswer_number (labelled.imp_right fun all => all id (first.trans val))
      have nextId_eq : t.nextId = (automatic (done ++ [c])).card + 1 := by
        rw [automatic_fresh fresh, if_neg (by simp [val])]
        exact n.nextId_eq
      constructor
      · exact numbered_insert n kept (special_unused n ids own val) (Nat.le_refl _) (by omega)
          (fun _ => val) nextId_eq
      · exact ⟨id, labelAnswer, AList.lookup_insert t.own⟩
    · have more : (automatic (done ++ [c])).card = t.nextId := by
        rw [automatic_fresh fresh, if_pos val, Finset.card_insert_of_notMem (not_automatic fresh),
          n.nextId_eq]
      have room : t.nextId < MAX_TAG_ORIGIN_VALUE := more ▸ few
      rw [if_pos room] at kept ⊢
      have unused : ∀ o, t.own.lookup o ≠ some t.nextId := by
        intro o found
        exact absurd (n.counted o t.nextId found (Nat.le_of_lt room)) (Nat.lt_irrefl _)
      constructor
      · exact numbered_insert n kept unused (Nat.le_succ _) (by omega) (by omega)
          (congrArg (· + 1) more.symm)
      · have small : t.nextId < 2 ^ 32 := Nat.lt_trans room (by decide)
        exact ⟨t.nextId, labelAnswer_number (Or.inr small), AList.lookup_insert t.own⟩

theorem run_keeps {name : JsString} {id : Nat} (own : t.own.lookup name = some id)
    (positive : 0 < id) (rest : List NameCall) :
    (afterCalls (getId clientOnly) t rest).own.lookup name = some id := by
  induction rest generalizing t with
  | nil => exact own
  | cons c rest ih => exact ih (getId_keeps own positive c.val)

variable {calls : List NameCall}

theorem run_kept (clientOnly : Bool) (ids : SpecialIds calls) {done rest : List NameCall}
    (split : calls = done ++ rest) : (afterCalls (getId clientOnly) {} done).Kept done := by
  induction done using List.reverseRecOn generalizing rest with
  | nil => exact Kept.new
  | append_singleton done c ih =>
    rw [List.append_assoc] at split
    rw [afterCalls_append]
    refine kept_step clientOnly (ih split) ?_
    intro id val
    exact ids.special c (by simp [split]) id val

theorem run_step (ids : SpecialIds calls) (numberable : Numberable clientOnly calls)
    {done rest : List NameCall} {c : NameCall} (split : calls = done ++ c :: rest)
    (n : (afterCalls (getId clientOnly) {} done).Numbered done) :
    (afterCalls (getId clientOnly) {} (done ++ [c])).Numbered (done ++ [c]) ∧
      ∃ id, ((afterCalls (getId clientOnly) {} done).getId clientOnly c.name c.val).2 =
          some (.number id) ∧
        (afterCalls (getId clientOnly) {} (done ++ [c])).own.lookup c.name = some id := by
  have whole : calls = (done ++ [c]) ++ rest := by rw [split, List.append_assoc]; rfl
  have mem : ∀ d ∈ done ++ [c], d ∈ calls := by
    intro d inDone
    rw [whole]
    exact List.mem_append_left _ inDone
  have some : SpecialIds (done ++ [c]) := by
    constructor
    · intro d inDone
      exact ids.special d (mem d inDone)
    · intro d inDone d' inDone'
      exact ids.oneName d (mem d inDone) d' (mem d' inDone')
  have few : (automatic (done ++ [c])).card < MAX_TAG_ORIGIN_VALUE := by
    have most := Finset.card_le_card (automatic_subset (done ++ [c]) rest)
    rw [← whole] at most
    exact Nat.lt_of_le_of_lt most numberable.few
  have first : firstId calls c.name = firstId (done ++ [c]) c.name := by
    rw [whole, firstId_append, if_pos (by simp)]
  have labelled := numberable.labelled.imp_right fun all => all c (mem c (by simp))
  rw [first] at labelled
  rw [afterCalls_append]
  exact numbered_step n some (numberable.notInherited c (mem c (by simp))) few labelled

theorem run_numbered (ids : SpecialIds calls) (numberable : Numberable clientOnly calls)
    {done rest : List NameCall} (split : calls = done ++ rest) :
    (afterCalls (getId clientOnly) {} done).Numbered done := by
  induction done using List.reverseRecOn generalizing rest with
  | nil => exact Numbered.new
  | append_singleton done c ih =>
    rw [List.append_assoc] at split
    exact (run_step ids numberable split (ih split)).1

theorem answers_final (ids : SpecialIds calls) (numberable : Numberable clientOnly calls)
    {a : NameCall × Option JsValue} (mem : a ∈ answers (getId clientOnly) {} calls) :
    ∃ id, a.2 = some (.number id) ∧
      (afterCalls (getId clientOnly) {} calls).own.lookup a.1.name = some id := by
  obtain ⟨done, c, rest, split, rfl⟩ := (mem_answers _ _ _).mp mem
  obtain ⟨n, id, answer, own⟩ :=
    run_step ids numberable split (run_numbered ids numberable split)
  have whole : calls = (done ++ [c]) ++ rest := by rw [split, List.append_assoc]; rfl
  refine ⟨id, answer, ?_⟩
  rw [whole, afterCalls_append]
  exact run_keeps own (n.positive _ _ own) rest

theorem injective_of_numberable (ids : SpecialIds calls) (numberable : Numberable clientOnly calls) :
    Injective (answers (getId clientOnly) {} calls) := by
  have n := run_numbered ids numberable (List.append_nil calls).symm
  constructor
  · intro a mem
    obtain ⟨id, answer, own⟩ := answers_final ids numberable mem
    exact ⟨id, n.positive _ _ own, answer⟩
  · intro a mem b mem'
    obtain ⟨id, answer, own⟩ := answers_final ids numberable mem
    obtain ⟨id', answer', own'⟩ := answers_final ids numberable mem'
    rw [answer, answer']
    constructor
    · intro same
      rw [same, own'] at own
      rw [Option.some.inj own]
    · intro same
      cases same
      exact n.distinct _ _ _ own own'

theorem first_answer (clientOnly : Bool) (ids : SpecialIds calls) {o : JsString}
    (named : o ∈ calls.map (·.name)) (plain : o ∉ objectPrototype) :
    ∃ a ∈ answers (getId clientOnly) {} calls, a.1.name = o ∧
      ∃ id, a.2 = labelAnswer clientOnly id ∧ (firstId calls o = some id ∨
        (firstId calls o = none ∧ 0 < id ∧ id < MAX_TAG_ORIGIN_VALUE)) := by
  obtain ⟨done, c, rest, split, rfl, fresh, first⟩ := first_call named
  have kept := run_kept clientOnly ids split
  have own : (afterCalls (getId clientOnly) {} done).own.lookup c.name = none := by
    cases found : (afterCalls (getId clientOnly) {} done).own.lookup c.name with
    | none => rfl
    | some id => exact absurd (kept.named c.name id found) fresh
  obtain ⟨id, next, stepped, given⟩ := getId_new clientOnly own plain c.val
  refine ⟨_, (mem_answers _ _ _).mpr ⟨done, c, rest, split, rfl⟩, rfl, id, by rw [stepped], ?_⟩
  rw [first]
  rcases given with ⟨val, _⟩ | ⟨val, _, number⟩
  · exact Or.inl val
  · have started := kept.started
    have limit : 1 < MAX_TAG_ORIGIN_VALUE := by decide
    refine Or.inr ⟨val, ?_⟩
    split at number <;> omega

/-- A name that every object has is answered with the object's property. -/
theorem inherited_answer (ids : SpecialIds calls) {c : NameCall} (mem : c ∈ calls)
    (inherited : c.name ∈ objectPrototype) :
    (c, some (.inherited c.name)) ∈ answers (getId clientOnly) {} calls := by
  obtain ⟨done, rest, split⟩ := List.append_of_mem mem
  have kept := run_kept clientOnly ids split
  have own := kept.notInherited c.name inherited
  exact (mem_answers _ _ _).mpr ⟨done, c, rest, split, by rw [getId_inherited own inherited]⟩

/-- The counter has fewer ids than MAX_TAG_ORIGIN_VALUE, so that many names share one. -/
theorem few_of_injective (ids : SpecialIds calls)
    (plain : ∀ c ∈ calls, c.name ∉ objectPrototype)
    (injective : Injective (answers (getId clientOnly) {} calls)) :
    (automatic calls).card < MAX_TAG_ORIGIN_VALUE := by
  have numbered : ∀ o ∈ automatic calls, ∃ id, id ∈ Finset.Ioo 0 MAX_TAG_ORIGIN_VALUE ∧
      ∃ a ∈ answers (getId clientOnly) {} calls, a.1.name = o ∧ a.2 = some (.number id) := by
    intro o mem
    obtain ⟨named, first⟩ := Finset.mem_filter.mp mem
    obtain ⟨c, inCalls, rfl⟩ := List.mem_map.mp (List.mem_toFinset.mp named)
    obtain ⟨a, answered, name, id, answer, given⟩ :=
      first_answer clientOnly ids (List.mem_toFinset.mp named) (plain c inCalls)
    rw [first] at given
    obtain ⟨_, positive, small⟩ := given.resolve_left (by simp)
    rw [labelAnswer_number (Or.inr (Nat.lt_trans small (by decide)))] at answer
    exact ⟨id, Finset.mem_Ioo.mpr ⟨positive, small⟩, a, answered, name, answer⟩
  choose! id bounds answered using numbered
  by_contra many
  have crowded : (Finset.Ioo 0 MAX_TAG_ORIGIN_VALUE).card < (automatic calls).card := by
    rw [Nat.card_Ioo]
    have limit : 0 < MAX_TAG_ORIGIN_VALUE := by decide
    omega
  obtain ⟨o, mem, o', mem', different, same⟩ :=
    Finset.exists_ne_map_eq_of_card_lt_of_maps_to crowded bounds
  obtain ⟨a, answeredA, nameA, idA⟩ := answered o mem
  obtain ⟨b, answeredB, nameB, idB⟩ := answered o' mem'
  have shared := (injective.distinct a answeredA b answeredB).mpr (by rw [idA, idB, same])
  exact different (nameA.symm.trans (shared.trans nameB))

theorem numberable_of_injective (ids : SpecialIds calls)
    (injective : Injective (answers (getId clientOnly) {} calls)) : Numberable clientOnly calls := by
  have plain : ∀ c ∈ calls, c.name ∉ objectPrototype := by
    intro c mem inherited
    obtain ⟨id, _, number⟩ := injective.positive _ (inherited_answer ids mem inherited)
    cases number
  constructor
  · exact plain
  · exact few_of_injective ids plain injective
  · cases clientOnly with
    | true => exact Or.inl rfl
    | false =>
      right
      intro c mem id first
      by_contra large
      obtain ⟨a, answered, _, id', answer, given⟩ := first_answer false ids
        (List.mem_map.mpr ⟨c, mem, rfl⟩) (plain c mem)
      rw [first] at given
      obtain rfl : id = id' := by simpa using given
      obtain ⟨_, _, number⟩ := injective.positive a answered
      rw [answer, labelAnswer_refused large] at number
      cases number

end NameTable

theorem answers_getTagId (n : Names) (calls : List NameCall) :
    answers Names.getTagId n calls = answers (NameTable.getId n.clientOnly) n.tags calls := by
  induction calls generalizing n with
  | nil => rfl
  | cons c calls ih =>
    simp only [answers, ih]
    rfl

theorem answers_getOriginId (n : Names) (calls : List NameCall) :
    answers Names.getOriginId n calls = answers (NameTable.getId n.clientOnly) n.origins calls := by
  induction calls generalizing n with
  | nil => rfl
  | cons c calls ih =>
    simp only [answers, ih]
    rfl

/-- Tags and origins have ids of their own if no name is a property of every object, fewer
    than MAX_TAG_ORIGIN_VALUE names are numbered by the counter, and the native side takes
    the ids given. -/
theorem name_ids_iff (clientOnly : Bool) (calls : List NameCall) (ids : SpecialIds calls) :
    (Injective (answers Names.getTagId { clientOnly := clientOnly } calls) ↔
        Numberable clientOnly calls) ∧
      (Injective (answers Names.getOriginId { clientOnly := clientOnly } calls) ↔
        Numberable clientOnly calls) := by
  rw [answers_getTagId, answers_getOriginId]
  have unshared : Injective (answers (NameTable.getId clientOnly) {} calls) ↔
      Numberable clientOnly calls := by
    constructor
    · exact NameTable.numberable_of_injective ids
    · exact NameTable.injective_of_numberable ids
  exact ⟨unshared, unshared⟩

/-- A name of a program's own beside one of the well-known names. -/
theorem name_ids_echo :
    Injective (answers Names.getTagId { clientOnly := false }
        [{ name := jsString "app" }, { name := jsString "echo", val := some 0xFFF01 }]) ∧
      Injective (answers Names.getOriginId { clientOnly := false }
        [{ name := jsString "app" }, { name := jsString "echo", val := some 0xFFF01 }]) := by
  have ids : SpecialIds
      [{ name := jsString "app" }, { name := jsString "echo", val := some 0xFFF01 }] := by
    constructor <;> simp [MAX_TAG_ORIGIN_VALUE]
  have numberable : Numberable false
      [{ name := jsString "app" }, { name := jsString "echo", val := some 0xFFF01 }] := by
    refine ⟨by decide, by decide, Or.inr ?_⟩
    intro c mem id first
    simp only [List.mem_cons, List.not_mem_nil, or_false] at mem
    rcases mem with rfl | rfl
    · cases first
    · cases first
      decide
  have exactly := name_ids_iff false _ ids
  exact ⟨exactly.1.mpr numberable, exactly.2.mpr numberable⟩

/-- The tag named constructor is a function. -/
theorem constructor_no_id :
    SpecialIds [{ name := jsString "constructor" }] ∧
      answers Names.getTagId { clientOnly := false } [{ name := jsString "constructor" }] =
        [({ name := jsString "constructor" }, some (.inherited (jsString "constructor")))] ∧
      ¬ Injective
        (answers Names.getTagId { clientOnly := false } [{ name := jsString "constructor" }]) := by
  have answered :
      answers Names.getTagId { clientOnly := false } [{ name := jsString "constructor" }] =
        [({ name := jsString "constructor" }, some (.inherited (jsString "constructor")))] := by
    decide
  refine ⟨⟨by simp, by simp⟩, answered, ?_⟩
  intro injective
  rw [answered] at injective
  obtain ⟨id, _, number⟩ := injective.positive _ (List.mem_singleton.mpr rfl)
  cases number

end GreaseLog
