import GreaseLog.FilterRegistry
import GreaseLog.NameIds

/- addFilter, modifyFilter and _log (index.js): the names in an options object are
   replaced by their ids before the native call, in the object of the caller. -/
namespace GreaseLog

def setupTags : List NameCall :=
  [{ name := jsString "echo", val := some 0xFFF01 }, { name := jsString "console", val := some 0xFFF02 },
    { name := jsString "native", val := some 0xFFF03 }, { name := jsString "stdout" },
    { name := jsString "stderr" }]

def setupNames : Names where
  clientOnly := false
  tags := afterCalls (NameTable.getId false) {} setupTags

/-- The property name that a value is turned into: the digits of a number, the source text
    of a function. -/
def JsValue.key : JsValue → JsString
  | .undefined => jsString "undefined"
  | .number n => (Nat.toDigits 10 n).map fun c => c.toNat.toUInt16
  | .inherited property =>
    if property = jsString "__proto__" then jsString "[object Object]"
    else
      jsString "function " ++
        (if property = jsString "constructor" then jsString "Object" else property) ++
        jsString "() \x7b [native code] \x7d"

def JsValue.uint32 : JsValue → Option UInt32
  | .number n => if n < 2 ^ 32 then some n.toUInt32 else none
  | _ => none

/-- The property `tag` or `origin` of an options object: a name, or a value that is no text. -/
inductive NameProperty where
  | text (o : JsString)
  | value (v : JsValue)
  deriving DecidableEq

namespace NameProperty

def put : Option JsString → NameProperty
  | none => .value .undefined
  | some o => .text o

def truthy : NameProperty → Bool
  | .text o => o != []
  | .value v => v.truthy

def id : NameProperty → JsValue
  | .text _ => .undefined
  | .value v => v

end NameProperty

namespace NameTable

/-- getTagId(p) or getOriginId(p) with one argument. No label is added for a value that is no
    text: its id is kept, and the call throws. -/
def getIdOf (t : NameTable) : NameProperty → NameTable × Option JsValue
  | .text o => t.getId false o none
  | .value v =>
    if (t.get v.key).truthy then (t, some (t.get v.key)) else ((t.getId false v.key none).1, none)

/-- if(obj.tag) obj.tag = getTagId(obj.tag); none is a call that throws. -/
def resolve (t : NameTable) (p : NameProperty) : NameTable × Option NameProperty :=
  if p.truthy then ((t.getIdOf p).1, (t.getIdOf p).2.map .value) else (t, some p)

/-- An id that is passed as a name is a name with this id. -/
def Rereads (t : NameTable) : NameProperty → Prop
  | .text _ => True
  | .value v => v.truthy = true → t.get v.key = v

/-- if(tag) tagN = getTagId(tag); in _log. -/
def nameId (t : NameTable) : Option JsString → NameTable × Option JsValue
  | none => (t, some .undefined)
  | some o => if o = [] then (t, some .undefined) else t.getId false o none

end NameTable

abbrev ObjRef := Nat

/-- An options object: `rest` holds what the native calls read beside the two names. -/
structure FilterOptions where
  tag : NameProperty := .value .undefined
  origin : NameProperty := .value .undefined
  rest : FilterArgs := {}

def FilterOptions.args (o : FilterOptions) : FilterArgs :=
  { o.rest with tag := o.tag.id.uint32, origin := o.origin.id.uint32 }

structure GivenNames where
  tag : Option JsString := none
  origin : Option JsString := none
  deriving DecidableEq

structure HandedIds where
  tag : JsValue
  origin : JsValue
  deriving DecidableEq

/-- A logger object, and the options objects of its callers. No call reads `given`, the names
    originally put in each object, or `added`, the filters that addFilter has returned with the
    names of their objects. -/
structure FilterSession where
  names : Names := setupNames
  table : FilterTable
  objects : ObjRef → FilterOptions := fun _ => {}
  given : ObjRef → GivenNames := fun _ => {}
  added : List (GivenNames × FilterId) := []

inductive OptionCall where
  | putTag (ref : ObjRef) (name : Option JsString)
  | putOrigin (ref : ObjRef) (name : Option JsString)
  | putRest (ref : ObjRef) (rest : FilterArgs)
  | addFilter (ref : ObjRef) (fresh : ListPtr)
  | modifyFilter (ref : ObjRef)
  | log (names : GivenNames)

namespace FilterSession

def start (heap : ListPtr → FilterList) : FilterSession := { table := .init heap }

def setObject (s : FilterSession) (ref : ObjRef) (o : FilterOptions) : FilterSession :=
  { s with objects := Function.update s.objects ref o }

/-- The lines that addFilter and modifyFilter share. -/
def resolveNames (s : FilterSession) (ref : ObjRef) : FilterSession × Except String Unit :=
  let o := s.objects ref
  let tag := s.names.tags.resolve o.tag
  let s := { s with names := { s.names with tags := tag.1 } }
  match tag.2 with
  | none => (s, .error "addTagLabel: bad parameters")
  | some p =>
    let o := { o with tag := p }
    let s := s.setObject ref o
    let origin := s.names.origins.resolve o.origin
    let s := { s with names := { s.names with origins := origin.1 } }
    match origin.2 with
    | none => (s, .error "addOriginLabel: bad parameters")
    | some p => (s.setObject ref { o with origin := p }, .ok ())

def nativeAdd (s : FilterSession) (ref : ObjRef) (fresh : ListPtr) :
    FilterSession × Except String (Option FilterId) :=
  let r := s.table.addFilter fresh (s.objects ref).args
  let added := match r.2 with
    | .ok (some id) => (s.given ref, id) :: s.added
    | _ => s.added
  ({ s with table := r.1, added := added }, r.2)

def nativeModify (s : FilterSession) (ref : ObjRef) : FilterSession × Except String Bool :=
  let r := s.table.modifyFilter (s.objects ref).args
  ({ s with table := r.1 }, r.2)

def withIds {α : Type} (s : FilterSession) (ref : ObjRef)
    (native : FilterSession → FilterSession × Except String α) : FilterSession × Except String α :=
  match s.resolveNames ref with
  | (s, .error e) => (s, .error e)
  | (s, .ok _) => native s

def addFilter (s : FilterSession) (ref : ObjRef) (fresh : ListPtr) :
    FilterSession × Except String (Option FilterId) :=
  s.withIds ref fun s => s.nativeAdd ref fresh

def modifyFilter (s : FilterSession) (ref : ObjRef) : FilterSession × Except String Bool :=
  s.withIds ref fun s => s.nativeModify ref

def log (s : FilterSession) (names : GivenNames) : FilterSession × Option HandedIds :=
  let origin := s.names.origins.nameId names.origin
  let s := { s with names := { s.names with origins := origin.1 } }
  match origin.2 with
  | none => (s, none)
  | some originN =>
    let tag := s.names.tags.nameId names.tag
    ({ s with names := { s.names with tags := tag.1 } }, tag.2.map fun tagN => ⟨tagN, originN⟩)

def apply (s : FilterSession) : OptionCall → FilterSession
  | .putTag ref name =>
    { s.setObject ref { s.objects ref with tag := .put name } with
      given := Function.update s.given ref { s.given ref with tag := name } }
  | .putOrigin ref name =>
    { s.setObject ref { s.objects ref with origin := .put name } with
      given := Function.update s.given ref { s.given ref with origin := name } }
  | .putRest ref rest => s.setObject ref { s.objects ref with rest := rest }
  | .addFilter ref fresh => (s.addFilter ref fresh).1
  | .modifyFilter ref => (s.modifyFilter ref).1
  | .log names => (s.log names).1

def handed (s : FilterSession) (ref : ObjRef) : HandedIds :=
  ⟨(s.objects ref).tag.id, (s.objects ref).origin.id⟩

/-- From here on _log uses these ids for the names, whatever is called before. -/
def LogsAs (s : FilterSession) (names : GivenNames) (ids : HandedIds) : Prop :=
  ∀ later : List OptionCall, ((later.foldl apply s).log names).2 = some ids

/-- An addFilter or modifyFilter gets through to the native call, and hands it the ids that
    _log uses for the names originally put in the object; _log itself never changes them. -/
def Agrees (s : FilterSession) : OptionCall → Prop
  | .addFilter ref fresh =>
    (s.resolveNames ref).2 = .ok () ∧
      (s.apply (.addFilter ref fresh)).LogsAs (s.given ref) ((s.resolveNames ref).1.handed ref)
  | .modifyFilter ref =>
    (s.resolveNames ref).2 = .ok () ∧
      (s.apply (.modifyFilter ref)).LogsAs (s.given ref) ((s.resolveNames ref).1.handed ref)
  | .log names => ∃ ids, (s.log names).2 = some ids ∧ (s.apply (.log names)).LogsAs names ids
  | _ => True

/-- An object is passed again only where the ids in it are names themselves, each with
    the id that it spells. -/
def Rereads (s : FilterSession) : OptionCall → Prop
  | .addFilter ref _ | .modifyFilter ref =>
    s.names.tags.Rereads (s.objects ref).tag ∧ s.names.origins.Rereads (s.objects ref).origin
  | _ => True

instance (t : NameTable) (p : NameProperty) : Decidable (t.Rereads p) :=
  match p with
  | .text _ => inferInstanceAs (Decidable True)
  | .value v => inferInstanceAs (Decidable (v.truthy = true → t.get v.key = v))

instance (s : FilterSession) (call : OptionCall) : Decidable (s.Rereads call) :=
  match call with
  | .addFilter ref _ | .modifyFilter ref =>
    inferInstanceAs (Decidable (s.names.tags.Rereads (s.objects ref).tag ∧
      s.names.origins.Rereads (s.objects ref).origin))
  | .putTag _ _ | .putOrigin _ _ | .putRest _ _ | .log _ => inferInstanceAs (Decidable True)

/-- What `new` returns is fresh, and there is an id for one more filter. -/
def Room (s : FilterSession) : OptionCall → Prop
  | .addFilter _ fresh => s.table.Fresh fresh ∧ s.table.nextFilterId.toNat < 2 ^ 32 - 1
  | _ => True

/-- modifyFilter finds a filter that was added for the names of its object, unless the object
    has a mask, which it refuses. -/
def Finds (s : FilterSession) : OptionCall → Prop
  | .modifyFilter ref =>
    ∀ id, (s.given ref, id) ∈ s.added → (s.objects ref).rest.id = some id →
      (∀ m, (s.objects ref).rest.mask ≠ .uint32 m) → (s.modifyFilter ref).2 = .ok true
  | _ => True

end FilterSession

/-! One table. -/

namespace NameTable
variable {t t' : NameTable} {name : Option JsString} {p : NameProperty} {v : JsValue}

def Sound (t : NameTable) : Prop := ∃ done, t.Kept done

def Knows (t t' : NameTable) : Prop := ∀ o, (t.get o).truthy = true → t'.get o = t.get o

inductive Settled (t : NameTable) : Option JsString → JsValue → Prop where
  | absent : Settled t none .undefined
  | empty : Settled t (some []) .undefined
  | named {o : JsString} (named : o ≠ []) (known : (t.get o).truthy = true) :
      Settled t (some o) (t.get o)

def Holds (t : NameTable) (name : Option JsString) (p : NameProperty) : Prop :=
  p = .put name ∨ ∃ v, p = .value v ∧ t.Settled name v

theorem Knows.refl (t : NameTable) : t.Knows t := fun _ _ => rfl

theorem setup_sound : setupNames.tags.Sound := by
  have ids : SpecialIds setupTags := by
    constructor <;> decide
  exact ⟨setupTags, run_kept false ids (List.append_nil setupTags).symm⟩

theorem get_insert {o o' : JsString} {id next : Nat} (other : o' ≠ o) :
    (⟨t.own.insert o id, next⟩ : NameTable).get o' = t.get o' := by
  rw [get, AList.lookup_insert_ne other]
  rfl

theorem getId_known {o : JsString} (known : (t.get o).truthy = true) :
    t.getId false o none = (t, some (t.get o)) := by
  simp only [getId, if_pos known]

theorem getId_settles (sound : t.Sound) (o : JsString) :
    (t.getId false o none).2 = some ((t.getId false o none).1.get o) ∧
      ((t.getId false o none).1.get o).truthy = true ∧ (t.getId false o none).1.Sound ∧
      t.Knows (t.getId false o none).1 := by
  obtain ⟨done, kept⟩ := sound
  by_cases known : (t.get o).truthy = true
  · rw [getId_known known]
    exact ⟨rfl, known, ⟨done, kept⟩, Knows.refl t⟩
  · have own : t.own.lookup o = none := by
      cases found : t.own.lookup o with
      | none => rfl
      | some id =>
        have positive := kept.positive o id found
        simp [get_own found, JsValue.truthy] at known
        omega
    have plain : o ∉ objectPrototype := by
      intro inherited
      simp [get, own, inherited, JsValue.truthy] at known
    obtain ⟨id, next, stepped, given⟩ := getId_new false own plain none
    have number : 0 < id ∧ id < 2 ^ 32 := by
      have started := kept.started
      have limit : MAX_TAG_ORIGIN_VALUE < 2 ^ 32 := by decide
      rcases given with ⟨val, _⟩ | ⟨_, _, is⟩
      · cases val
      · split at is <;> omega
    have answer : (⟨t.own.insert o id, next⟩ : NameTable).get o = .number id :=
      get_own (AList.lookup_insert t.own)
    have kept' := kept_step false kept (c := { name := o }) (fun _ val => by cases val)
    rw [stepped] at kept' ⊢
    refine ⟨?_, ?_, ⟨_, kept'⟩, ?_⟩
    · rw [labelAnswer_number (Or.inr number.2), answer]
    · rw [answer]
      simp [JsValue.truthy, Nat.pos_iff_ne_zero.mp number.1]
    · intro o' truthy
      refine get_insert ?_
      intro same
      exact known (same ▸ truthy)

theorem Settled.nameId (settled : t.Settled name v) : t.nameId name = (t, some v) := by
  cases settled with
  | absent => rfl
  | empty => rfl
  | named named known => simp only [NameTable.nameId, if_neg named, getId_known known]

theorem Settled.keeps (settled : t.Settled name v) (knows : t.Knows t') : t'.Settled name v := by
  cases settled with
  | absent => exact .absent
  | empty => exact .empty
  | @named o named known =>
    have same := knows o known
    rw [← same] at known ⊢
    exact .named named known

theorem Settled.unique {v' : JsValue} (settled : t.Settled name v) (settled' : t.Settled name v') :
    v = v' := by
  have same := settled.nameId.symm.trans settled'.nameId
  exact Option.some.inj (congrArg Prod.snd same)

theorem nameId_settles (sound : t.Sound) (name : Option JsString) :
    (∃ v, (t.nameId name).2 = some v ∧ (t.nameId name).1.Settled name v) ∧
      (t.nameId name).1.Sound ∧ t.Knows (t.nameId name).1 := by
  cases name with
  | none => exact ⟨⟨.undefined, rfl, .absent⟩, sound, Knows.refl t⟩
  | some o =>
    by_cases empty : o = []
    · subst empty
      exact ⟨⟨.undefined, rfl, .empty⟩, sound, Knows.refl t⟩
    · simp only [nameId, if_neg empty]
      obtain ⟨answer, known, sound', knows⟩ := getId_settles sound o
      exact ⟨⟨_, answer, .named empty known⟩, sound', knows⟩

theorem getIdOf_keeps (sound : t.Sound) (p : NameProperty) :
    (t.getIdOf p).1.Sound ∧ t.Knows (t.getIdOf p).1 := by
  cases p with
  | text o => exact (getId_settles sound o).2.2
  | value v =>
    simp only [getIdOf]
    split
    · exact ⟨sound, Knows.refl t⟩
    · exact (getId_settles sound v.key).2.2

theorem resolve_keeps (sound : t.Sound) (p : NameProperty) :
    (t.resolve p).1.Sound ∧ t.Knows (t.resolve p).1 := by
  unfold resolve
  split
  · exact getIdOf_keeps sound p
  · exact ⟨sound, Knows.refl t⟩

theorem Holds.keeps (holds : t.Holds name p) (knows : t.Knows t') : t'.Holds name p := by
  rcases holds with same | ⟨v, same, settled⟩
  · exact Or.inl same
  · exact Or.inr ⟨v, same, settled.keeps knows⟩

theorem resolve_put (sound : t.Sound) (name : Option JsString) :
    ∃ p, (t.resolve (.put name)).2 = some p ∧ (t.resolve (.put name)).1.Settled name p.id ∧
      (t.resolve (.put name)).1.Holds name p := by
  cases name with
  | none => exact ⟨.value .undefined, rfl, .absent, Or.inl rfl⟩
  | some o =>
    by_cases empty : o = []
    · subst empty
      exact ⟨.text [], rfl, .empty, Or.inl rfl⟩
    · have text : (NameProperty.text o).truthy = true := bne_iff_ne.mpr empty
      obtain ⟨answer, known, _⟩ := getId_settles sound o
      have settled := Settled.named empty known
      rw [NameProperty.put, resolve, if_pos text, getIdOf, answer]
      exact ⟨_, rfl, settled, Or.inr ⟨_, rfl, settled⟩⟩

theorem resolve_value (truthy : v.truthy = true) :
    t.resolve (.value v) = if (t.get v.key).truthy = true then (t, some (.value (t.get v.key)))
      else ((t.getId false v.key none).1, none) := by
  have value : (NameProperty.value v).truthy = true := truthy
  rw [resolve, if_pos value, getIdOf]
  split <;> rfl

theorem resolve_settles (sound : t.Sound) (holds : t.Holds name p) (rereads : t.Rereads p) :
    ∃ p', (t.resolve p).2 = some p' ∧ (t.resolve p).1.Settled name p'.id ∧
      (t.resolve p).1.Holds name p' := by
  rcases holds with rfl | ⟨v, rfl, settled⟩
  · exact resolve_put sound name
  · cases truthy : v.truthy with
    | false =>
      have falsy : (NameProperty.value v).truthy ≠ true := by simp [NameProperty.truthy, truthy]
      rw [resolve, if_neg falsy]
      exact ⟨.value v, rfl, settled, Or.inr ⟨v, rfl, settled⟩⟩
    | true =>
      have itself : t.get v.key = v := rereads truthy
      rw [resolve_value truthy, itself, if_pos truthy]
      exact ⟨.value v, rfl, settled, Or.inr ⟨v, rfl, settled⟩⟩

theorem rereads_of_resolve (holds : t.Holds name p) {p' : NameProperty}
    (resolved : (t.resolve p).2 = some p')
    (agrees : ((t.resolve p).1.nameId name).2 = some p'.id) : t.Rereads p := by
  rcases holds with rfl | ⟨v, rfl, settled⟩
  · cases name with
    | none =>
      intro truthy
      cases truthy
    | some o => trivial
  · intro truthy
    rw [resolve_value truthy] at resolved agrees
    split at resolved
    · rename_i known
      obtain rfl := Option.some.inj resolved
      rw [if_pos known, settled.nameId] at agrees
      exact (Option.some.inj agrees).symm
    · cases resolved

end NameTable

theorem modifyFilter_found {T : FilterTable} {args : FilterArgs} {id : FilterId} {p : ListPtr} {k : Nat}
    (given : args.id = some id) (named : id ≠ 0) (maskless : ∀ m, args.mask ≠ .uint32 m)
    (found : T._lookupFilter (args.origin.getD 0) (args.tag.getD 0) id = some (p, k)) :
    (T.modifyFilter args).2 = .ok true := by
  unfold FilterTable.modifyFilter
  split
  · rename_i masked
    exact absurd masked (maskless _)
  · rename_i missing _
    rw [given] at missing
    cases missing
  · rename_i same _
    rw [given] at same
    cases same
    simp only [if_neg named, found]

/-! Whole sessions. -/

namespace FilterSession
variable {s s' : FilterSession} {ref : ObjRef} {names : GivenNames} {ids : HandedIds}

structure Tabled (s : FilterSession) : Prop where
  tags : s.names.tags.Sound
  origins : s.names.origins.Sound

structure Keeps (s s' : FilterSession) : Prop where
  tabled : s'.Tabled
  tags : s.names.tags.Knows s'.names.tags
  origins : s.names.origins.Knows s'.names.origins

structure Settles (s : FilterSession) (names : GivenNames) (ids : HandedIds) : Prop where
  tag : s.names.tags.Settled names.tag ids.tag
  origin : s.names.origins.Settled names.origin ids.origin

theorem Settles.keeps (settles : s.Settles names ids) (keeps : s.Keeps s') :
    s'.Settles names ids :=
  ⟨settles.tag.keeps keeps.tags, settles.origin.keeps keeps.origins⟩

theorem keeps_of_names (tabled : s.Tabled) (same : s'.names = s.names) : s.Keeps s' := by
  obtain ⟨tags, origins⟩ := tabled
  refine ⟨⟨?_, ?_⟩, ?_, ?_⟩ <;> rw [same]
  · exact tags
  · exact origins
  · exact NameTable.Knows.refl _
  · exact NameTable.Knows.refl _

theorem Keeps.congr {s'' : FilterSession} (keeps : s.Keeps s') (same : s''.names = s'.names) :
    s.Keeps s'' := by
  have again := keeps_of_names keeps.tabled same
  refine ⟨again.tabled, ?_, ?_⟩ <;> rw [same]
  · exact keeps.tags
  · exact keeps.origins

def resolved (s : FilterSession) (ref : ObjRef) (tag origin : NameProperty) : FilterSession :=
  { s.setObject ref { s.objects ref with tag := tag, origin := origin } with
    names := { s.names with
      tags := (s.names.tags.resolve (s.objects ref).tag).1
      origins := (s.names.origins.resolve (s.objects ref).origin).1 } }

theorem resolveNames_some {tag origin : NameProperty}
    (tags : (s.names.tags.resolve (s.objects ref).tag).2 = some tag)
    (origins : (s.names.origins.resolve (s.objects ref).origin).2 = some origin) :
    s.resolveNames ref = (s.resolved ref tag origin, .ok ()) := by
  simp only [resolveNames, tags, origins, setObject, Function.update_idem]
  rfl

theorem resolveNames_ok (done : (s.resolveNames ref).2 = .ok ()) :
    ∃ tag origin, (s.names.tags.resolve (s.objects ref).tag).2 = some tag ∧
      (s.names.origins.resolve (s.objects ref).origin).2 = some origin := by
  simp only [resolveNames] at done
  split at done
  · cases done
  · rename_i tag tags
    split at done
    · cases done
    · rename_i origin origins
      exact ⟨tag, origin, tags, origins⟩

theorem resolveNames_keeps (tabled : s.Tabled) (ref : ObjRef) :
    s.Keeps (s.resolveNames ref).1 := by
  obtain ⟨tags, tagsKnow⟩ := NameTable.resolve_keeps tabled.tags (s.objects ref).tag
  obtain ⟨origins, originsKnow⟩ := NameTable.resolve_keeps tabled.origins (s.objects ref).origin
  simp only [resolveNames]
  split
  · exact ⟨⟨tags, tabled.origins⟩, tagsKnow, NameTable.Knows.refl _⟩
  · split
    · exact ⟨⟨tags, origins⟩, tagsKnow, originsKnow⟩
    · exact ⟨⟨tags, origins⟩, tagsKnow, originsKnow⟩

section
variable {α : Type} {native : FilterSession → FilterSession × Except String α}

theorem withIds_names (same : ∀ s, (native s).1.names = s.names) (s : FilterSession) (ref : ObjRef) :
    (s.withIds ref native).1.names = (s.resolveNames ref).1.names := by
  unfold withIds
  split
  · rename_i run
    rw [run]
  · rename_i run
    rw [run]
    exact same _

theorem withIds_of_ok (done : (s.resolveNames ref).2 = .ok ()) :
    s.withIds ref native = native (s.resolveNames ref).1 := by
  unfold withIds
  split
  · rename_i run
    rw [run] at done
    cases done
  · rename_i run
    rw [run]

end

theorem addFilter_names (s : FilterSession) (ref : ObjRef) (fresh : ListPtr) :
    (s.addFilter ref fresh).1.names = (s.resolveNames ref).1.names :=
  withIds_names (fun _ => rfl) s ref

theorem modifyFilter_names (s : FilterSession) (ref : ObjRef) :
    (s.modifyFilter ref).1.names = (s.resolveNames ref).1.names :=
  withIds_names (fun _ => rfl) s ref

theorem log_settles (tabled : s.Tabled) (names : GivenNames) :
    s.Keeps (s.log names).1 ∧ ∃ ids, (s.log names).2 = some ids ∧ (s.log names).1.Settles names ids := by
  obtain ⟨⟨origin, given, settled⟩, origins, originsKnow⟩ :=
    NameTable.nameId_settles tabled.origins names.origin
  obtain ⟨⟨tag, given', settled'⟩, tags, tagsKnow⟩ := NameTable.nameId_settles tabled.tags names.tag
  simp only [log, given, given', Option.map_some]
  exact ⟨⟨⟨tags, origins⟩, tagsKnow, originsKnow⟩, ⟨tag, origin⟩, rfl, settled', settled⟩

theorem log_ids (logged : (s.log names).2 = some ids) :
    (s.names.tags.nameId names.tag).2 = some ids.tag ∧
      (s.names.origins.nameId names.origin).2 = some ids.origin := by
  simp only [log] at logged
  split at logged
  · cases logged
  · rename_i originN given
    obtain ⟨tagN, given', rfl⟩ := Option.map_eq_some_iff.mp logged
    exact ⟨given', given⟩

theorem Settles.log (settles : s.Settles names ids) : (s.log names).2 = some ids := by
  simp only [FilterSession.log, settles.tag.nameId, settles.origin.nameId, Option.map_some]

theorem apply_keeps (tabled : s.Tabled) (call : OptionCall) : s.Keeps (s.apply call) := by
  cases call with
  | putTag ref name => exact keeps_of_names tabled rfl
  | putOrigin ref name => exact keeps_of_names tabled rfl
  | putRest ref rest => exact keeps_of_names tabled rfl
  | addFilter ref fresh => exact (resolveNames_keeps tabled ref).congr (addFilter_names s ref fresh)
  | modifyFilter ref => exact (resolveNames_keeps tabled ref).congr (modifyFilter_names s ref)
  | log names => exact (log_settles tabled names).1

theorem Settles.logsAs (settles : s.Settles names ids) (tabled : s.Tabled) : s.LogsAs names ids := by
  intro later
  induction later generalizing s with
  | nil => exact settles.log
  | cons call later ih =>
    have keeps := apply_keeps tabled call
    exact ih (settles.keeps keeps) keeps.tabled

structure Held (s : FilterSession) : Prop extends s.Tabled where
  tag : ∀ ref, s.names.tags.Holds (s.given ref).tag (s.objects ref).tag
  origin : ∀ ref, s.names.origins.Holds (s.given ref).origin (s.objects ref).origin

theorem Held.update (held : s.Held) (keeps : s.Keeps s') {o : FilterOptions} {given : GivenNames}
    (objects : s'.objects = Function.update s.objects ref o)
    (givens : s'.given = Function.update s.given ref given)
    (tag : s'.names.tags.Holds given.tag o.tag)
    (origin : s'.names.origins.Holds given.origin o.origin) : s'.Held := by
  refine ⟨keeps.tabled, ?_, ?_⟩
  · intro other
    rw [objects, givens]
    by_cases same : other = ref
    · subst same
      rw [Function.update_self, Function.update_self]
      exact tag
    · rw [Function.update_of_ne same, Function.update_of_ne same]
      exact (held.tag other).keeps keeps.tags
  · intro other
    rw [objects, givens]
    by_cases same : other = ref
    · subst same
      rw [Function.update_self, Function.update_self]
      exact origin
    · rw [Function.update_of_ne same, Function.update_of_ne same]
      exact (held.origin other).keeps keeps.origins

structure Resolved (s : FilterSession) (ref : ObjRef) (s' : FilterSession) : Prop where
  held : s'.Held
  keeps : s.Keeps s'
  settles : s'.Settles (s.given ref) (s'.handed ref)
  given : s'.given = s.given
  table : s'.table = s.table
  added : s'.added = s.added
  rest : (s'.objects ref).rest = (s.objects ref).rest

theorem resolveNames_settles (held : s.Held)
    (rereads : s.names.tags.Rereads (s.objects ref).tag ∧ s.names.origins.Rereads (s.objects ref).origin) :
    (s.resolveNames ref).2 = .ok () ∧ s.Resolved ref (s.resolveNames ref).1 := by
  obtain ⟨tag, tags, tagSettled, tagHeld⟩ :=
    NameTable.resolve_settles held.tags (held.tag ref) rereads.1
  obtain ⟨origin, origins, originSettled, originHeld⟩ :=
    NameTable.resolve_settles held.origins (held.origin ref) rereads.2
  have keeps := resolveNames_keeps held.toTabled ref
  rw [resolveNames_some tags origins] at keeps ⊢
  have itself : (s.resolved ref tag origin).objects ref =
      { s.objects ref with tag := tag, origin := origin } := Function.update_self ..
  refine ⟨rfl, ?_, keeps, ⟨?_, ?_⟩, rfl, rfl, rfl, ?_⟩
  · exact held.update keeps rfl (Function.update_eq_self ..).symm tagHeld originHeld
  · rw [handed, itself]
    exact tagSettled
  · rw [handed, itself]
    exact originSettled
  · rw [itself]

/-- The ids handed over are those of the names if and only if the object rereads. -/
theorem resolveNames_iff (held : s.Held) (same : s'.names = (s.resolveNames ref).1.names) :
    ((s.resolveNames ref).2 = .ok () ∧
        s'.LogsAs (s.given ref) ((s.resolveNames ref).1.handed ref)) ↔
      s.names.tags.Rereads (s.objects ref).tag ∧
        s.names.origins.Rereads (s.objects ref).origin := by
  constructor
  · rintro ⟨done, logs⟩
    obtain ⟨tag, origin, tags, origins⟩ := resolveNames_ok done
    obtain ⟨sameTag, sameOrigin⟩ := log_ids (logs [])
    have itself : (s.resolved ref tag origin).objects ref =
        { s.objects ref with tag := tag, origin := origin } := Function.update_self ..
    rw [List.foldl_nil, same, resolveNames_some tags origins, handed, itself] at sameTag sameOrigin
    constructor
    · exact NameTable.rereads_of_resolve (held.tag ref) tags sameTag
    · exact NameTable.rereads_of_resolve (held.origin ref) origins sameOrigin
  · intro rereads
    obtain ⟨done, resolved⟩ := resolveNames_settles held rereads
    have keeps := resolved.keeps.congr same
    refine ⟨done, Settles.logsAs ⟨?_, ?_⟩ keeps.tabled⟩ <;> rw [same]
    · exact resolved.settles.tag
    · exact resolved.settles.origin

theorem Held.congr (held : s.Held) (names : s'.names = s.names) (objects : s'.objects = s.objects)
    (given : s'.given = s.given) : s'.Held := by
  have keeps := keeps_of_names held.toTabled names
  refine ⟨keeps.tabled, ?_, ?_⟩ <;> intro ref <;> rw [names, objects, given]
  · exact held.tag ref
  · exact held.origin ref

theorem Held.apply (held : s.Held) {call : OptionCall} (rereads : s.Rereads call) :
    (s.apply call).Held := by
  have keeps := apply_keeps held.toTabled call
  cases call with
  | putTag ref name => exact held.update keeps rfl rfl (Or.inl rfl) (held.origin ref)
  | putOrigin ref name => exact held.update keeps rfl rfl (held.tag ref) (Or.inl rfl)
  | putRest ref rest =>
    exact held.update keeps rfl (Function.update_eq_self ..).symm (held.tag ref) (held.origin ref)
  | addFilter ref fresh =>
    obtain ⟨done, resolved⟩ := resolveNames_settles held rereads
    rw [FilterSession.apply, addFilter, withIds_of_ok done]
    exact resolved.held.congr rfl rfl rfl
  | modifyFilter ref =>
    obtain ⟨done, resolved⟩ := resolveNames_settles held rereads
    rw [FilterSession.apply, modifyFilter, withIds_of_ok done]
    exact resolved.held.congr rfl rfl rfl
  | log names =>
    have objects : (s.apply (.log names)).objects = s.objects ∧
        (s.apply (.log names)).given = s.given := by
      simp only [FilterSession.apply, FilterSession.log]
      split <;> exact ⟨rfl, rfl⟩
    refine ⟨keeps.tabled, ?_, ?_⟩ <;> intro ref <;> rw [objects.1, objects.2]
    · exact (held.tag ref).keeps keeps.tags
    · exact (held.origin ref).keeps keeps.origins

theorem agrees_iff (held : s.Held) (call : OptionCall) : s.Agrees call ↔ s.Rereads call := by
  cases call with
  | putTag ref name => exact Iff.rfl
  | putOrigin ref name => exact Iff.rfl
  | putRest ref rest => exact Iff.rfl
  | addFilter ref fresh => exact resolveNames_iff held (addFilter_names s ref fresh)
  | modifyFilter ref => exact resolveNames_iff held (modifyFilter_names s ref)
  | log names =>
    obtain ⟨keeps, ids, logged, settles⟩ := log_settles held.toTabled names
    exact iff_of_true ⟨ids, logged, settles.logsAs keeps.tabled⟩ trivial

def Entered (s : FilterSession) (R : FilterRegistry) (names : GivenNames) (id : FilterId) : Prop :=
  ∃ e ids, R id = some e ∧ s.Settles names ids ∧ e.tag = ids.tag.uint32.getD 0 ∧
    e.origin = ids.origin.uint32.getD 0

/-- Every filter that was added is registered under the ids of its names. -/
structure Filed (s : FilterSession) : Prop extends s.Held where
  filters : ∃ n R, Registered n s.table R ∧ ∀ names id, (names, id) ∈ s.added →
    s.Entered R names id

theorem Entered.keeps {R R' : FilterRegistry} {id : FilterId} (entered : s.Entered R names id)
    (keeps : s.Keeps s')
    (stays : ∀ e, R id = some e →
      ∃ e', R' id = some e' ∧ e'.origin = e.origin ∧ e'.tag = e.tag ∧ e'.mask = e.mask) :
    s'.Entered R' names id := by
  obtain ⟨e, ids, entry, settles, tag, origin⟩ := entered
  obtain ⟨e', entry', sameOrigin, sameTag, _⟩ := stays e entry
  exact ⟨e', ids, entry', settles.keeps keeps, sameTag.trans tag, sameOrigin.trans origin⟩

theorem Filed.unfiltered (filed : s.Filed) (held : s'.Held) (keeps : s.Keeps s')
    (table : s'.table = s.table) (added : s'.added = s.added) : s'.Filed := by
  obtain ⟨n, R, reg, all⟩ := filed.filters
  refine ⟨held, n, R, ?_, ?_⟩
  · rw [table]
    exact reg
  · intro names id mem
    rw [added] at mem
    exact (all names id mem).keeps keeps fun e entry => ⟨e, entry, rfl, rfl, rfl⟩

theorem Filed.resolved (filed : s.Filed)
    (rereads : s.names.tags.Rereads (s.objects ref).tag ∧ s.names.origins.Rereads (s.objects ref).origin) :
    (s.resolveNames ref).1.Filed := by
  obtain ⟨_, resolved⟩ := resolveNames_settles filed.toHeld rereads
  exact filed.unfiltered resolved.held resolved.keeps resolved.table resolved.added

theorem Filed.nativeAdd (filed : s.Filed) (settles : s.Settles (s.given ref) (s.handed ref))
    {fresh : ListPtr} (new : s.table.Fresh fresh) (few : s.table.nextFilterId.toNat < 2 ^ 32 - 1) :
    (s.nativeAdd ref fresh).1.Filed := by
  obtain ⟨n, R, reg, all⟩ := filed.filters
  have keeps : s.Keeps (s.nativeAdd ref fresh).1 := keeps_of_names filed.toTabled rfl
  let call := FilterCall.addFilter fresh (s.objects ref).args
  have bound : n + call.addsFilter.toNat < 2 ^ 32 - 1 := by
    have counter := reg.counter
    have one := Bool.toNat_le call.addsFilter
    omega
  have reg' := reg.addFilter_registered new (s.objects ref).args bound
  have old : ∀ names id, (names, id) ∈ s.added →
      (s.nativeAdd ref fresh).1.Entered (R.call s.table call) names id := by
    intro names id mem
    refine (all names id mem).keeps keeps ?_
    intro e entry
    have step : FilterRun.Step ⟨s.table, R⟩ call ⟨s.table.call call, R.call s.table call⟩ :=
      ⟨new, rfl⟩
    exact reg.step_keeps step entry
  refine ⟨filed.toHeld.congr rfl rfl rfl, n + call.addsFilter.toNat, R.call s.table call, reg', ?_⟩
  intro names id mem
  simp only [FilterSession.nativeAdd] at mem
  split at mem
  · rename_i result
    rcases List.mem_cons.mp mem with same | mem
    · cases same
      have entry : ∃ e, R.call s.table call id = some e ∧
          e.tag = (s.handed ref).tag.uint32.getD 0 ∧
          e.origin = (s.handed ref).origin.uint32.getD 0 := by
        simp only [call, FilterRegistry.call, result]
        exact ⟨_, Function.update_self .., rfl, rfl⟩
      obtain ⟨e, registered, tag, origin⟩ := entry
      exact ⟨e, s.handed ref, registered, settles.keeps keeps, tag, origin⟩
    · exact old names id mem
  · exact old names id mem

theorem Filed.nativeModify (filed : s.Filed) (settles : s.Settles (s.given ref) (s.handed ref)) :
    (s.nativeModify ref).1.Filed ∧
      ∀ id, (s.given ref, id) ∈ s.added → (s.objects ref).rest.id = some id →
        (∀ m, (s.objects ref).rest.mask ≠ .uint32 m) → (s.nativeModify ref).2 = .ok true := by
  obtain ⟨n, R, reg, all⟩ := filed.filters
  have keeps : s.Keeps (s.nativeModify ref).1 := keeps_of_names filed.toTabled rfl
  let call := FilterCall.modifyFilter (s.objects ref).args
  constructor
  · refine ⟨filed.toHeld.congr rfl rfl rfl, n, R.call s.table call,
      reg.modifyFilter_registered (s.objects ref).args, ?_⟩
    intro names id mem
    refine (all names id mem).keeps keeps ?_
    intro e entry
    have step : FilterRun.Step ⟨s.table, R⟩ call ⟨s.table.call call, R.call s.table call⟩ :=
      ⟨trivial, rfl⟩
    exact reg.step_keeps step entry
  · intro id mem given maskless
    obtain ⟨e, ids, entry, settles', tag, origin⟩ := all _ id mem
    obtain ⟨p, k, _, found, _⟩ := reg.lookup_entry entry
    rw [settles'.tag.unique settles.tag] at tag
    rw [settles'.origin.unique settles.origin] at origin
    rw [tag, origin] at found
    exact modifyFilter_found given (reg.numbered id e entry).1 maskless found

theorem Filed.apply (filed : s.Filed) {call : OptionCall} (rereads : s.Rereads call)
    (room : s.Room call) : s.Finds call ∧ (s.apply call).Filed := by
  have held := filed.toHeld.apply rereads
  have keeps := apply_keeps filed.toTabled call
  cases call with
  | putTag ref name => exact ⟨trivial, filed.unfiltered held keeps rfl rfl⟩
  | putOrigin ref name => exact ⟨trivial, filed.unfiltered held keeps rfl rfl⟩
  | putRest ref rest => exact ⟨trivial, filed.unfiltered held keeps rfl rfl⟩
  | addFilter ref fresh =>
    obtain ⟨done, resolved⟩ := resolveNames_settles filed.toHeld rereads
    obtain ⟨new, few⟩ := room
    rw [FilterSession.apply, addFilter, withIds_of_ok done]
    rw [← resolved.table] at new few
    refine ⟨trivial, (filed.resolved rereads).nativeAdd ?_ new few⟩
    rw [resolved.given]
    exact resolved.settles
  | modifyFilter ref =>
    obtain ⟨done, resolved⟩ := resolveNames_settles filed.toHeld rereads
    have settles := resolved.settles
    rw [← resolved.given] at settles
    obtain ⟨filed', finds⟩ := (filed.resolved rereads).nativeModify settles
    rw [resolved.given, resolved.added, resolved.rest] at finds
    rw [Finds, FilterSession.apply, modifyFilter, withIds_of_ok done]
    exact ⟨finds, filed'⟩
  | log names =>
    have same : (s.apply (.log names)).table = s.table ∧ (s.apply (.log names)).added = s.added := by
      simp only [FilterSession.apply, FilterSession.log]
      split <;> exact ⟨rfl, rfl⟩
    exact ⟨trivial, filed.unfiltered held keeps same.1 same.2⟩

theorem start_filed (heap : ListPtr → FilterList) : (start heap).Filed := by
  have held : (start heap).Held := by
    refine ⟨⟨NameTable.setup_sound, ⟨[], NameTable.Kept.new⟩⟩, ?_, ?_⟩ <;> intro ref
    · exact Or.inl rfl
    · exact Or.inl rfl
  refine ⟨held, 0, fun _ => none, Registered.init heap, ?_⟩
  intro names id mem
  cases mem

/-- The ids handed over in a run are those of the names put in the objects if and only if each
    object rereads when it is passed; then every filter that was added is found, as long as
    there are ids for filters. -/
theorem handed_names_iff (heap : ListPtr → FilterList) (calls : List OptionCall) :
    (Runs.Checked Agrees apply (start heap) calls ↔
        Runs.Checked Rereads apply (start heap) calls) ∧
      (Runs.Checked Rereads apply (start heap) calls →
        Runs.Checked Room apply (start heap) calls →
        Runs.Checked Finds apply (start heap) calls) := by
  have filed := start_filed heap
  constructor
  · refine Runs.checked_iff_while ?_ calls filed.toHeld
    intro s call held
    exact ⟨agrees_iff held call, held.apply⟩
  · intro rereads room
    refine Runs.checked_while ?_ filed (Runs.checked_and.mpr ⟨rereads, room⟩)
    intro s call filed ⟨rereads, room⟩
    exact filed.apply rereads room

def renewed : List OptionCall :=
  [.putTag 0 (some (jsString "Eds")), .putRest 0 { target := some 7 }, .addFilter 0 1,
    .putTag 0 (some (jsString "Eds")), .putRest 0 { id := some 1, disable := some true },
    .modifyFilter 0]

theorem handed_names_iff_renewed :
    Runs.Checked Agrees apply (start fun _ => .new) renewed ∧
      Runs.Checked Finds apply (start fun _ => .new) renewed := by
  have rereads : Runs.Checked Rereads apply (start fun _ => .new) renewed := by decide
  have room : Runs.Checked Room apply (start fun _ => .new) renewed := by
    refine ⟨trivial, trivial, ⟨⟨by decide, ?_⟩, by decide⟩, trivial, trivial, trivial, trivial⟩
    intro hash q listed
    cases listed
  obtain ⟨agrees, finds⟩ := handed_names_iff (fun _ => .new) renewed
  exact ⟨agrees.mpr rereads, finds rereads room⟩

def reused : List OptionCall :=
  [.putTag 0 (some (jsString "Eds")), .putRest 0 { target := some 7 }, .addFilter 0 1,
    .putRest 0 { id := some 1, disable := some true }]

/-- The first modifyFilter throws. The next hands over 4 where _log uses 3, and does not find the
    filter. -/
theorem reused_not_found :
    let s := reused.foldl apply (start fun _ => .new)
    let after := s.apply (.modifyFilter 0)
    s.added = [({ tag := some (jsString "Eds") }, 1)] ∧
      (s.modifyFilter 0).2 = .error "addTagLabel: bad parameters" ∧
      (after.resolveNames 0).1.handed 0 = ⟨.number 4, .undefined⟩ ∧
      (after.log { tag := some (jsString "Eds") }).2 = some ⟨.number 3, .undefined⟩ ∧
      (after.modifyFilter 0).2 = .ok false ∧
      ¬ Runs.Checked Agrees apply (start fun _ => .new) (reused ++ [.modifyFilter 0]) := by
  have throws : ((reused.foldl apply (start fun _ => .new)).resolveNames 0).2 =
      .error "addTagLabel: bad parameters" := by rfl
  refine ⟨by decide, by rfl, by decide, by decide, by rfl, ?_⟩
  intro checked
  obtain ⟨_, ⟨done, _⟩, _⟩ := Runs.checked_append.mp checked
  rw [throws] at done
  cases done

end FilterSession

end GreaseLog
