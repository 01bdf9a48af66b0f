import GreaseLog.Banks
import GreaseLog.Routing

/- Runs of one target with its owner. When every entry that write() is to buffer
   fits an empty buffer with its delimiter, no buffer is ever overfilled and no
   such entry is lost. The code itself tests less than that. -/
namespace GreaseLog

structure BankState where
  t : LogTarget
  o : Owner

inductive BankAction where
  | write (env : WriteEnv) (s : List Byte) (m : LogMeta) (filter : Filter)
  | writeOverflow (env : WriteEnv) (log : SingleLog) (filter : Filter)
  | rotate
  | flushAll (doRotate nocallbacks : Bool)
  | writeCb
  | callV8LogCallback
  | disableWrites (v : Bool)
  | configure (formats : TargetFormats) (delim : List Byte) (logCallbackSet : Bool)
  /-- What the other targets and threads make of the owner. -/
  | others (o : Owner)

namespace BankState

def apply (s : BankState) : BankAction → BankState
  | .write env text m filter =>
    let r := s.t.write s.o env text m filter
    ⟨r.1, r.2.1⟩
  | .writeOverflow env log filter =>
    let r := s.t.writeOverflow s.o env log filter
    ⟨r.1, r.2.1⟩
  | .rotate => ⟨s.t.rotate.1, s.o⟩
  | .flushAll doRotate nocallbacks =>
    let r := s.t.flushAll s.o doRotate nocallbacks
    ⟨r.1, r.2.1⟩
  | .writeCb => ⟨(s.t.writeCb s.o).1, (s.t.writeCb s.o).2⟩
  | .callV8LogCallback => ⟨(s.t.callV8LogCallback s.o).1, (s.t.callV8LogCallback s.o).2⟩
  | .disableWrites v => ⟨{ s.t with disabled := v }, s.o⟩
  | .configure formats delim logCallbackSet =>
    ⟨{ s.t with formats := formats, delim := delim, logCallbackSet := logCallbackSet }, s.o⟩
  | .others o => ⟨s.t, o⟩

def Allowed (s : BankState) : BankAction → Prop
  | .others o => o.pending s.t.myId = s.o.pending s.t.myId
  | _ => True

def Step (s : BankState) (a : BankAction) (s' : BankState) : Prop := s.Allowed a ∧ s' = s.apply a

/-- A target as its constructor leaves it, with an owner that has none of its callbacks. -/
structure Start (s : BankState) : Prop where
  new : ∃ kind bufferSize id delim formats logCallbackSet,
    s.t = { LogTarget.new kind bufferSize id delim with
      formats := formats, logCallbackSet := logCallbackSet }
  noCallbacks : s.o.pending s.t.myId = []

abbrev BankWf (s : BankState) : Prop := s.t.BankWf s.o []

end BankState

namespace LogTarget
variable {t : LogTarget} {o : Owner} {held : List BufId}

theorem BankWf.owner (wf : t.BankWf o held) {o' : Owner}
    (same : o'.v8LogCallbacks = o.v8LogCallbacks) : t.BankWf o' held :=
  wf.pending_same (by simp only [Owner.pending, same])

theorem write_cases (t : LogTarget) (o : Owner) (env : WriteEnv) (s : List Byte) (m : LogMeta)
    (filter : Filter) :
    let header := t.header env m filter
    let footer := t.footer env m filter
    let buffered := t.disabled = false ∧ s.length + GREASE_MAX_PREFIX_HEADER ≤ t.bankSize
    let fits := s.length + header.length + footer.length ≤ t.current.remain
    ∃ o' : Owner, o'.v8LogCallbacks = o.v8LogCallbacks ∧
      ((t.disabled = true ∧ t.write o env s m filter = (t, o', .disabled)) ∨
      (t.disabled = false ∧ t.bankSize < s.length + GREASE_MAX_PREFIX_HEADER ∧
        t.write o env s m filter = (t, o', if o.HasRoom then .requeued else .requeueDropped)) ∨
      (buffered ∧ fits ∧ t.write o env s m filter =
        (t.store header s footer, o', (t.store header s footer).stored false)) ∨
      (buffered ∧ ¬ fits ∧ t.rotate.2 = .rotated ∧ o.HasRoom ∧ t.write o env s m filter =
        (t.rotate.1.store header s footer, o', (t.rotate.1.store header s footer).stored true)) ∨
      (buffered ∧ ¬ fits ∧ t.rotate.2 = .rotated ∧ ¬ o.HasRoom ∧
        t.write o env s m filter = (t.rotate.1, o', .rotateDropped)) ∨
      (buffered ∧ ¬ fits ∧ t.rotate.2 ≠ .rotated ∧
        t.write o env s m filter = (t.rotate.1, o', .notRotated t.rotate.2))) := by
  intro header footer buffered fits
  cases off : t.disabled with
  | true => exact ⟨o, rfl, Or.inl ⟨rfl, by simp [write, off]⟩⟩
  | false =>
    by_cases small : t.bankSize < s.length + GREASE_MAX_PREFIX_HEADER
    · refine ⟨(o.addCmd (.writeTargetOverflow t.myId (.ofData s m))).1, rfl,
        Or.inr (Or.inl ⟨rfl, small, ?_⟩)⟩
      by_cases room : o.HasRoom
      · simp [write, off, small, room, Owner.addCmd_room _ room]
      · simp [write, off, small, room, Owner.addCmd_full _ room]
    · have enough : buffered := ⟨off, Nat.le_of_not_lt small⟩
      by_cases fit : fits
      · refine ⟨if t.current.isEmpty then o.refGreaseInGrease else o, ?_,
          Or.inr (Or.inr (Or.inl ⟨enough, fit, ?_⟩))⟩
        · split <;> rfl
        · simp only [write, off, small, if_false, Bool.false_eq_true]
          rw [if_pos fit]
      · by_cases turned : t.rotate.2 = .rotated
        · by_cases room : o.HasRoom
          · refine ⟨(o.addCmd (.targetRotateBuffer t.myId)).1.refGreaseInGrease, rfl,
              Or.inr (Or.inr (Or.inr (Or.inl ⟨enough, fit, turned, room, ?_⟩)))⟩
            simp only [write, off, small, if_false, Bool.false_eq_true]
            rw [if_neg fit]
            simp [turned, Owner.addCmd_room _ room, header, footer]
          · refine ⟨o, rfl, Or.inr (Or.inr (Or.inr (Or.inr (Or.inl
              ⟨enough, fit, turned, room, ?_⟩))))⟩
            simp only [write, off, small, if_false, Bool.false_eq_true]
            rw [if_neg fit]
            simp [turned, Owner.addCmd_full _ room]
        · refine ⟨o, rfl, Or.inr (Or.inr (Or.inr (Or.inr (Or.inr
            ⟨enough, fit, turned, ?_⟩))))⟩
          simp only [write, off, small, if_false, Bool.false_eq_true]
          rw [if_neg fit]
          simp [turned]

theorem write_wf (wf : t.BankWf o held) (env : WriteEnv) (s : List Byte) (m : LogMeta)
    (filter : Filter) :
    (t.write o env s m filter).1.BankWf (t.write o env s m filter).2.1 held := by
  obtain ⟨o', same, ⟨_, h⟩ | ⟨_, _, h⟩ | ⟨_, _, h⟩ | ⟨_, _, _, _, h⟩ | ⟨_, _, _, _, h⟩ | ⟨_, _, _, h⟩⟩ :=
    write_cases t o env s m filter <;> rw [h]
  · exact wf.owner same
  · exact wf.owner same
  · exact (store_wf wf _ _ _).owner same
  · exact (store_wf (rotate_wf wf) _ _ _).owner same
  · exact (rotate_wf wf).owner same
  · exact (rotate_wf wf).owner same

theorem writeOverflow_wf (wf : t.BankWf o held) (env : WriteEnv) (log : SingleLog)
    (filter : Filter) :
    (t.writeOverflow o env log filter).1.BankWf (t.writeOverflow o env log filter).2.1 held := by
  unfold writeOverflow writeAsyncOverflow
  split
  · exact wf
  · simp only
    split
    · exact submit_wf (w := .overflow _ _) (wf.owner rfl)
    · exact wf.pending_same (returnOverflow_pending t o.refGreaseInGrease _ false t.myId)
    · split
      · exact wf.owner rfl
      · split
        · exact wf.pending_same (addCallback_overflow_pending o.refGreaseInGrease _ _ _)
        · exact wf.owner rfl

end LogTarget

namespace BankState
variable {s s' start : BankState} {a : BankAction}

theorem apply_wf (wf : s.BankWf) (allowed : s.Allowed a) : (s.apply a).BankWf := by
  cases a with
  | write env text m filter => exact LogTarget.write_wf wf env text m filter
  | writeOverflow env log filter => exact LogTarget.writeOverflow_wf wf env log filter
  | rotate => exact LogTarget.rotate_wf wf
  | flushAll doRotate nocallbacks => exact LogTarget.flushAll_wf wf doRotate nocallbacks
  | writeCb => exact LogTarget.writeCb_wf wf
  | callV8LogCallback => exact LogTarget.callV8LogCallback_wf wf
  | disableWrites v => exact ⟨wf.located, wf.availCleared, wf.spaces⟩
  | configure formats delim logCallbackSet => exact ⟨wf.located, wf.availCleared, wf.spaces⟩
  | others o =>
    refine LogTarget.BankWf.moved wf rfl rfl (fun _ mem => mem) fun b => ?_
    simp only [apply, LogTarget.locations]
    rw [show o.pending s.t.myId = s.o.pending s.t.myId from allowed]

theorem start_wf (new : s.Start) : s.BankWf := by
  obtain ⟨⟨kind, bufferSize, id, delim, formats, logCallbackSet, target⟩, noCallbacks⟩ := new
  constructor
  · simp only [LogTarget.locations, noCallbacks, List.append_nil]
    rw [target]
    exact (by decide : List.Perm ([0, 1, 2, 3] : List BufId) (List.finRange NUM_BANKS))
  · intro b mem
    rw [target]
    rfl
  · intro b
    rw [target]
    rfl

theorem run_wf {actions : List BankAction} (new : start.Start)
    (run : Runs.Run Step start actions s) : s.BankWf :=
  Runs.run_invariant BankState.BankWf (start_wf new)
    (fun _ _ _ wf step => by obtain ⟨allowed, rfl⟩ := step; exact apply_wf wf allowed) run

end BankState

/-! What fits. -/

namespace LogTarget
variable {t t' t'' : LogTarget} {o : Owner} {held : List BufId}

structure SameConfig (t t' : LogTarget) : Prop where
  kind : t'.kind = t.kind
  myId : t'.myId = t.myId
  bankSize : t'.bankSize = t.bankSize
  delim : t'.delim = t.delim
  formats : t'.formats = t.formats
  disabled : t'.disabled = t.disabled

theorem SameConfig.refl (t : LogTarget) : SameConfig t t := ⟨rfl, rfl, rfl, rfl, rfl, rfl⟩

theorem SameConfig.trans (first : SameConfig t t') (second : SameConfig t' t'') :
    SameConfig t t'' :=
  ⟨second.kind.trans first.kind, second.myId.trans first.myId,
    second.bankSize.trans first.bankSize, second.delim.trans first.delim,
    second.formats.trans first.formats, second.disabled.trans first.disabled⟩

theorem SameConfig.texts (same : SameConfig t t') : t'.header = t.header ∧ t'.footer = t.footer := by
  have header : t'.header = t.header := by
    funext env m filter
    simp only [LogTarget.header, same.formats]
  refine ⟨header, ?_⟩
  funext env m filter
  simp only [LogTarget.footer, header, same.formats]

structure OnlyClears (t t' : LogTarget) : Prop where
  config : SameConfig t t'
  buffers : ∀ b, t'.buffers b = t.buffers b ∨ t'.buffers b = (t.buffers b).clear

theorem OnlyClears.refl (t : LogTarget) : OnlyClears t t :=
  ⟨SameConfig.refl t, fun _ => Or.inl rfl⟩

theorem OnlyClears.trans (first : OnlyClears t t') (second : OnlyClears t' t'') :
    OnlyClears t t'' := by
  refine ⟨first.config.trans second.config, fun b => ?_⟩
  rcases first.buffers b with h | h <;> rcases second.buffers b with h' | h' <;> rw [h', h]
  · exact Or.inl rfl
  · exact Or.inr rfl
  · exact Or.inr rfl
  · exact Or.inr rfl

theorem OnlyClears.delims (clears : OnlyClears t t') (b : BufId) :
    (t'.buffers b).delim = (t.buffers b).delim := by
  rcases clears.buffers b with h | h <;> rw [h]
  rfl

theorem OnlyClears.frame (clears : OnlyClears t t') (config : SameConfig t' t'')
    (same : t''.buffers = t'.buffers) : OnlyClears t t'' :=
  ⟨clears.config.trans config, fun b => by rw [same]; exact clears.buffers b⟩

theorem OnlyClears.same (config : SameConfig t t') (same : t'.buffers = t.buffers) :
    OnlyClears t t' :=
  (OnlyClears.refl t).frame config same

theorem onlyClears_clearBuffer (t : LogTarget) (b : BufId) : OnlyClears t (t.clearBuffer b) := by
  refine ⟨⟨rfl, rfl, rfl, rfl, rfl, rfl⟩, fun c => ?_⟩
  by_cases same : c = b
  · subst same
    exact Or.inr (setBuffer_same _ _)
  · exact Or.inl (setBuffer_other _ same)

theorem onlyClears_release (t : LogTarget) (b : BufId) :
    OnlyClears t ((t.clearBuffer b).addAvail b) :=
  (onlyClears_clearBuffer t b).frame ⟨rfl, rfl, rfl, rfl, rfl, rfl⟩ rfl

theorem onlyClears_rotate (t : LogTarget) : OnlyClears t t.rotate.1 := by
  unfold rotate
  split
  · split
    · simp only
      split
      · exact .same ⟨rfl, rfl, rfl, rfl, rfl, rfl⟩ rfl
      · exact (onlyClears_clearBuffer t _).frame ⟨rfl, rfl, rfl, rfl, rfl, rfl⟩ rfl
    · exact onlyClears_clearBuffer _ _
  · exact OnlyClears.refl t

theorem rotate_frame (t : LogTarget) :
    t.rotate.1.inflight = t.inflight ∧ t.rotate.1.logCallbackSet = t.logCallbackSet := by
  unfold rotate
  split
  · split
    · simp only
      split <;> exact ⟨rfl, rfl⟩
    · exact ⟨rfl, rfl⟩
  · exact ⟨rfl, rfl⟩

theorem onlyClears_returnBuffer (t : LogTarget) (o : Owner) (b : BufId) (nocallback : Bool) :
    OnlyClears t (t.returnBuffer o b nocallback).1 := by
  obtain ⟨o', _, _, released | ⟨_, waiting⟩⟩ := t.returnBuffer_cases o b nocallback
  · rw [released]
    exact onlyClears_release t b
  · rw [waiting]
    exact OnlyClears.refl t

theorem onlyClears_flushOut (t : LogTarget) (o : Owner) (nocallbacks : Bool) (out : List BufId) :
    OnlyClears t (t.flushOut o nocallbacks out).1 := by
  induction out generalizing t o with
  | nil => exact OnlyClears.refl t
  | cons b rest ih =>
    refine OnlyClears.trans ?_ (ih _ _)
    rcases flush_cases t o b nocallbacks with ⟨_, h⟩ | ⟨_, h⟩ <;> rw [h]
    · exact .same ⟨rfl, rfl, rfl, rfl, rfl, rfl⟩ rfl
    · exact onlyClears_returnBuffer t o b nocallbacks

theorem onlyClears_takeWriteOut (t : LogTarget) : OnlyClears t { t with writeOutBuffers := .empty } :=
  .same ⟨rfl, rfl, rfl, rfl, rfl, rfl⟩ rfl

theorem onlyClears_flushAll (t : LogTarget) (o : Owner) (doRotate nocallbacks : Bool) :
    OnlyClears t (t.flushAll o doRotate nocallbacks).1 := by
  have ready : OnlyClears t (if doRotate then t.rotate else (t, .noData)).1 := by
    split
    · exact onlyClears_rotate t
    · exact OnlyClears.refl t
  exact (ready.trans (onlyClears_takeWriteOut _)).trans (onlyClears_flushOut _ o nocallbacks _)

theorem onlyClears_writeCb (t : LogTarget) (o : Owner) : OnlyClears t (t.writeCb o).1 := by
  have taken : ∀ rest, OnlyClears t { t with inflight := rest } :=
    fun _ => .same ⟨rfl, rfl, rfl, rfl, rfl, rfl⟩ rfl
  unfold writeCb
  split
  · exact OnlyClears.refl t
  · exact (taken _).trans (onlyClears_returnBuffer _ o _ _)
  · exact taken _

theorem onlyClears_callV8LogCallback (t : LogTarget) (o : Owner) :
    OnlyClears t (t.callV8LogCallback o).1 := by
  rcases t.callV8LogCallback_cases o with ⟨_, h⟩ | ⟨_, _, _, ⟨b, _, h⟩ | ⟨_, h⟩⟩ <;> rw [h]
  · exact OnlyClears.refl t
  · exact onlyClears_release t b
  · exact OnlyClears.refl t

theorem onlyClears_writeOverflow (t : LogTarget) (o : Owner) (env : WriteEnv) (log : SingleLog)
    (filter : Filter) : OnlyClears t (t.writeOverflow o env log filter).1 := by
  unfold writeOverflow writeAsyncOverflow
  split
  · exact OnlyClears.refl t
  · simp only
    split
    · exact .same ⟨rfl, rfl, rfl, rfl, rfl, rfl⟩ rfl
    · exact OnlyClears.refl t
    · split
      · exact OnlyClears.refl t
      · split <;> exact OnlyClears.refl t

/-- The buffers all have the delimiter the target was made with, and none is overfilled. -/
structure Sound (t : LogTarget) (d : List Byte) : Prop where
  delims : ∀ b, (t.buffers b).delim = d
  within : ∀ b, (t.buffers b).data.length ≤ t.bankSize

theorem OnlyClears.sound {d : List Byte} (clears : OnlyClears t t') (sound : t.Sound d) :
    t'.Sound d := by
  constructor
  · intro b
    rw [clears.delims b]
    exact sound.delims b
  · intro b
    rw [clears.config.bankSize]
    rcases clears.buffers b with h | h <;> rw [h]
    · exact sound.within b
    · simp [LogBuf.clear]

structure EntryFits (t : LogTarget) (d header s footer : List Byte) : Prop where
  size : (entryBytes d header s footer).length ≤ t.bankSize
  carried : s ≠ [] ∨ footer ≠ [] ∨ d = []

theorem entryBytes_length (d header s footer : List Byte) :
    (entryBytes d header s footer).length =
      header.length + s.length + footer.length + d.length := by
  simp [entryBytes, Nat.add_assoc]

theorem store_data (t : LogTarget) {s : List Byte} (header footer : List Byte)
    (carried : s ≠ [] ∨ footer ≠ [] ∨ t.current.delim = []) :
    (t.store header s footer).current.data =
      t.current.data ++ entryBytes t.current.delim header s footer := by
  have copied : (t.store header s footer).current = t.current.copyEntry header s footer :=
    setBuffer_same _ _
  rw [copied, copyEntry_entry _ carried]

theorem store_current {d s : List Byte} (sound : t.Sound d) (header footer : List Byte)
    (carried : s ≠ [] ∨ footer ≠ [] ∨ d = []) :
    (t.store header s footer).current.data = t.current.data ++ entryBytes d header s footer := by
  have delim : t.current.delim = d := sound.delims _
  rw [store_data t header footer (by rwa [delim]), delim]

theorem store_sound {d : List Byte} (sound : t.Sound d) {header s footer : List Byte}
    (carried : s ≠ [] ∨ footer ≠ [] ∨ d = [])
    (room : t.current.data.length + (entryBytes d header s footer).length ≤ t.bankSize) :
    (t.store header s footer).Sound d := by
  have data := store_current sound header footer carried
  constructor
  · intro b
    by_cases same : b = t.currentBuffer
    · subst same
      simp [store, current, sound.delims]
    · rw [store, setBuffer_other _ same]
      exact sound.delims b
  · intro b
    by_cases same : b = t.currentBuffer
    · subst same
      have stored : ((t.store header s footer).buffers t.currentBuffer).data =
          t.current.data ++ entryBytes d header s footer := data
      rw [stored, List.length_append]
      exact room
    · rw [store, setBuffer_other _ same]
      exact sound.within b

theorem rotated_current (wf : t.BankWf o held) (turned : t.rotate.2 = .rotated) :
    t.rotate.1.current.data = [] := by
  rcases rotate_wf_cases wf with ⟨_, h⟩ | ⟨_, _, h⟩ | ⟨_, next, avail, writeOut, free, _, h⟩
  · simp [h] at turned
  · simp [h] at turned
  · rw [h]
    exact wf.availCleared next (by simp [free])

theorem remain_room (wf : t.BankWf o held) {d : List Byte} (sound : t.Sound d) {n : Nat}
    (fit : n ≤ t.current.remain) :
    t.current.data.length + n + d.length ≤ t.bankSize ∨ n = 0 := by
  unfold LogBuf.remain at fit
  rw [show t.current.space = t.bankSize from wf.spaces _,
    show t.current.delim = d from sound.delims _] at fit
  omega

theorem write_sound (wf : t.BankWf o held) {d : List Byte} (sound : t.Sound d) (env : WriteEnv)
    (s : List Byte) (m : LogMeta) (filter : Filter)
    (fits : t.disabled = true ∨ t.bankSize < s.length + GREASE_MAX_PREFIX_HEADER ∨
      t.EntryFits d (t.header env m filter) s (t.footer env m filter)) :
    (t.write o env s m filter).1.Sound d := by
  have buffered : t.disabled = false ∧ s.length + GREASE_MAX_PREFIX_HEADER ≤ t.bankSize →
      t.EntryFits d (t.header env m filter) s (t.footer env m filter) := by
    intro ⟨on, size⟩
    rcases fits with off | small | fits
    · simp [on] at off
    · omega
    · exact fits
  obtain ⟨o', same, ⟨_, h⟩ | ⟨_, _, h⟩ | ⟨on, fit, h⟩ | ⟨on, _, turned, _, h⟩ | ⟨_, _, _, _, h⟩ |
    ⟨_, _, _, h⟩⟩ := write_cases t o env s m filter <;> rw [h]
  · exact sound
  · exact sound
  · obtain ⟨size, carried⟩ := buffered on
    refine store_sound sound carried ?_
    rw [entryBytes_length] at size ⊢
    have within := sound.within t.currentBuffer
    rcases remain_room wf sound fit with room | none
    · omega
    · have noText : s = [] := List.length_eq_zero_iff.mp (by omega)
      have noFooter : t.footer env m filter = [] := List.length_eq_zero_iff.mp (by omega)
      have noDelim : d = [] := by simpa [noText, noFooter] using carried
      simp only [noDelim, List.length_nil] at *
      have current : t.current.data.length ≤ t.bankSize := within
      omega
  · obtain ⟨size, carried⟩ := buffered on
    refine store_sound ((onlyClears_rotate t).sound sound) carried ?_
    rw [rotated_current wf turned, (onlyClears_rotate t).config.bankSize]
    simpa using size
  · exact (onlyClears_rotate t).sound sound
  · exact (onlyClears_rotate t).sound sound

/-- write() stores an entry that fits when there is a free buffer and room for the command. -/
theorem write_stores (wf : t.BankWf o held) {d : List Byte} (sound : t.Sound d) (env : WriteEnv)
    (s : List Byte) (m : LogMeta) (filter : Filter) (on : t.disabled = false)
    (size : s.length + GREASE_MAX_PREFIX_HEADER ≤ t.bankSize) (free : t.availBuffers.items ≠ [])
    (room : o.HasRoom) (fits : t.EntryFits d (t.header env m filter) s (t.footer env m filter)) :
    ∃ old, (old = t.current.data ∨ old = []) ∧
      (t.write o env s m filter).1.current.data =
        old ++ entryBytes d (t.header env m filter) s (t.footer env m filter) := by
  have turns : t.current.data ≠ [] → t.rotate.2 = .rotated := by
    intro data
    rcases rotate_wf_cases wf with ⟨none, _⟩ | ⟨_, none, _⟩ | ⟨_, _, _, _, _, _, h⟩
    · exact absurd none data
    · exact absurd none free
    · rw [h]
  have notFits : ¬ s.length + (t.header env m filter).length + (t.footer env m filter).length ≤
      t.current.remain → t.current.data ≠ [] := by
    intro small empty
    apply small
    have total := fits.size
    rw [entryBytes_length] at total
    unfold LogBuf.remain
    rw [show t.current.space = t.bankSize from wf.spaces _,
      show t.current.delim = d from sound.delims _, empty, List.length_nil]
    omega
  obtain ⟨o', same, ⟨off, _⟩ | ⟨_, small, _⟩ | ⟨_, fit, h⟩ | ⟨_, _, turned, _, h⟩ |
    ⟨_, _, _, full, _⟩ | ⟨_, small, stuck, _⟩⟩ := write_cases t o env s m filter
  · simp [on] at off
  · omega
  · rw [h]
    exact ⟨_, Or.inl rfl, store_current sound _ _ fits.carried⟩
  · rw [h]
    refine ⟨[], Or.inr rfl, ?_⟩
    rw [store_current ((onlyClears_rotate t).sound sound) _ _ fits.carried,
      rotated_current wf turned]
  · exact absurd room full
  · exact absurd (turns (notFits small)) stuck

end LogTarget

namespace BankState
variable {s s' start : BankState} {a : BankAction}

/-- The entry that write() is to buffer is complete in an empty buffer. -/
def WriteFits (s : BankState) : BankAction → Prop
  | .write env text m filter =>
    s.t.disabled = true ∨ s.t.bankSize < text.length + GREASE_MAX_PREFIX_HEADER ∨
      s.t.EntryFits s.t.current.delim (s.t.header env m filter) text (s.t.footer env m filter)
  | _ => True

theorem apply_sound (wf : s.BankWf) {d : List Byte} (sound : s.t.Sound d) (fits : s.WriteFits a) :
    (s.apply a).t.Sound d := by
  cases a with
  | write env text m filter =>
    have delim : s.t.current.delim = d := sound.delims _
    simp only [WriteFits, delim] at fits
    exact LogTarget.write_sound wf sound env text m filter fits
  | writeOverflow env log filter =>
    exact (LogTarget.onlyClears_writeOverflow s.t s.o env log filter).sound sound
  | rotate => exact (LogTarget.onlyClears_rotate s.t).sound sound
  | flushAll doRotate nocallbacks =>
    exact (LogTarget.onlyClears_flushAll s.t s.o doRotate nocallbacks).sound sound
  | writeCb => exact (LogTarget.onlyClears_writeCb s.t s.o).sound sound
  | callV8LogCallback => exact (LogTarget.onlyClears_callV8LogCallback s.t s.o).sound sound
  | disableWrites v => exact ⟨sound.delims, sound.within⟩
  | configure formats delim logCallbackSet => exact ⟨sound.delims, sound.within⟩
  | others o => exact sound

theorem start_sound (new : s.Start) : ∃ d, s.t.Sound d := by
  obtain ⟨⟨kind, bufferSize, id, delim, formats, logCallbackSet, target⟩, _⟩ := new
  refine ⟨delim, ⟨fun b => ?_, fun b => ?_⟩⟩
  · rw [target]
    rfl
  · rw [target]
    exact Nat.zero_le _

/-- In a run whose writes all fit, no buffer is overfilled, and a write that fits
    is stored whenever there is a free buffer and room in internalCmdQueue. -/
theorem fitting_writes_safe {actions : List BankAction} (new : start.Start)
    (run : Runs.Run (Runs.Guard WriteFits Step) start actions s) :
    (∀ b, (s.t.buffers b).data.length ≤ (s.t.buffers b).space) ∧
      ∀ env text m filter, s.WriteFits (.write env text m filter) → s.t.disabled = false →
        text.length + GREASE_MAX_PREFIX_HEADER ≤ s.t.bankSize → s.t.availBuffers.items ≠ [] →
        s.o.HasRoom → ∃ old, (old = s.t.current.data ∨ old = []) ∧
          (s.apply (.write env text m filter)).t.current.data =
            old ++ entryBytes s.t.current.delim (s.t.header env m filter) text
              (s.t.footer env m filter) := by
  obtain ⟨d, initial⟩ := start_sound new
  have inv : s.BankWf ∧ s.t.Sound d := by
    refine Runs.run_invariant (fun s => s.BankWf ∧ s.t.Sound d) ⟨start_wf new, initial⟩ ?_ run
    rintro s a s' ⟨wf, sound⟩ ⟨fits, allowed, rfl⟩
    exact ⟨apply_wf wf allowed, apply_sound wf sound fits⟩
  obtain ⟨wf, sound⟩ := inv
  refine ⟨fun b => by rw [wf.spaces]; exact sound.within b, ?_⟩
  intro env text m filter fits on size free room
  have delim : s.t.current.delim = d := sound.delims _
  simp only [WriteFits, delim] at fits
  rw [delim]
  refine LogTarget.write_stores wf sound env text m filter on size free room ?_
  rcases fits with off | small | fits
  · simp [on] at off
  · omega
  · exact fits

def newBank (bufferSize : Nat) (delim : List Byte) : BankState :=
  ⟨LogTarget.new .file bufferSize 1 delim, {}⟩

theorem newBank_start (bufferSize : Nat) (delim : List Byte) : (newBank bufferSize delim).Start :=
  ⟨⟨.file, bufferSize, 1, delim, {}, false, rfl⟩, rfl⟩

def plainWrite (s : List Byte) : BankAction := .write plainEnv s noMetaData defaultFilter

theorem step_apply (s : BankState) (a : BankAction) (allowed : s.Allowed a) : Step s a (s.apply a) :=
  ⟨allowed, rfl⟩

theorem fitting_writes_safe_lines :
    let s := (newBank 200 [10]).apply (plainWrite [97])
    (∀ b, (s.t.buffers b).data.length ≤ (s.t.buffers b).space) ∧
      ∃ old, (old = [97, 10] ∨ old = []) ∧
        (s.apply (plainWrite [98])).t.current.data = old ++ [98, 10] := by
  have fits : (newBank 200 [10]).WriteFits (plainWrite [97]) :=
    Or.inr (Or.inr ⟨by decide +kernel, by decide⟩)
  obtain ⟨within, stores⟩ := fitting_writes_safe (newBank_start 200 [10])
    (Runs.run_one ⟨fits, step_apply _ (plainWrite [97]) trivial⟩)
  exact ⟨within, stores plainEnv [98] noMetaData defaultFilter
    (Or.inr (Or.inr ⟨by decide +kernel, by decide⟩)) rfl (by decide) (by decide) (by decide)⟩

/-- A delimiter longer than the 128 bytes that write() reserves. With 129 bytes a
    second entry overfills the buffer that write() rotates to; with 200 bytes a
    first entry is lost, though a buffer is free and the queue is empty. -/
theorem long_delimiter_unsafe :
    (∃ actions s, Runs.Run Step (newBank 130 (List.replicate 129 10)) actions s ∧
      ∃ b, (s.t.buffers b).space < (s.t.buffers b).data.length) ∧
    (∃ s : BankState, s.Start ∧ s.t.disabled = false ∧
      1 + GREASE_MAX_PREFIX_HEADER ≤ s.t.bankSize ∧ s.t.availBuffers.items ≠ [] ∧ s.o.HasRoom ∧
      (s.apply (plainWrite [97])).t.current.data = []) := by
  constructor
  · let first := (newBank 130 (List.replicate 129 10)).apply (plainWrite [97])
    have run : Runs.Run Step (newBank 130 (List.replicate 129 10))
        ([] ++ [plainWrite [97]] ++ [plainWrite [98, 99]]) (first.apply (plainWrite [98, 99])) :=
      (Runs.Run.start.next (step_apply _ (plainWrite [97]) trivial)).next
        (step_apply _ (plainWrite [98, 99]) trivial)
    exact ⟨_, _, run, 1, by decide +kernel⟩
  · exact ⟨newBank 129 (List.replicate 200 10), newBank_start _ _, rfl, by decide, by decide,
      by decide, by decide +kernel⟩

end BankState

end GreaseLog
