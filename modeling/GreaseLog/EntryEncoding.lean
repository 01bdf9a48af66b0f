import GreaseLog.BankSafety
import GreaseLog.Printing

/- The two ways of putting an entry together: three calls of copyIn into a buffer with
   its own delimiter, or the list of buffers that writeOverflow() hands on. -/
namespace GreaseLog

def WriteEnv.scratch (env : WriteEnv) (headerMem footerMem : Mem) : WriteEnv :=
  { env with headerMem := headerMem, footerMem := footerMem }

namespace LogTarget

/-- Header, text, footer and the delimiter that the target has now. -/
def entryText (t : LogTarget) (env : WriteEnv) (s : List Byte) (m : LogMeta) (filter : Filter) :
    List Byte :=
  entryBytes t.delim (headerText t.formats env m filter) s (footerText t.formats env filter)

/-- Whether write() has copied the entry, and then whether it has rotated before. -/
def copied : WriteOutcome → Option Bool
  | .stored afterRotate | .overran afterRotate => some afterRotate
  | _ => none

structure EntrySame (t : LogTarget) (o : Owner) (env env' : WriteEnv) (s : List Byte) (m : LogMeta)
    (filter : Filter) (log : SingleLog) (afterRotate : Bool) : Prop where
  buffered : (t.write o env s m filter).1.current.data =
    (if afterRotate then t.rotate.1 else t).current.data ++ t.entryText env s m filter
  overflow : (t.overflowEntry env' log filter).flatten = t.entryText env s m filter

/-- The texts leave room for the NUL behind them and no footer is printed over another one;
    and the buffers were made with the delimiter that the target has now, if any is copied. -/
structure EntryKept (t : LogTarget) (created : List Byte) (env : WriteEnv) (s : List Byte)
    (m : LogMeta) (filter : Filter) : Prop where
  room : (headerText t.formats env m filter).length + (footerText t.formats env filter).length <
    GREASE_MAX_PREFIX_HEADER
  oneFooter : filterFooter env filter = [] ∨ t.formats.postFormat.length = 0
  delim : (if s ≠ [] ∨ footerText t.formats env filter ≠ [] then created else []) = t.delim

variable {t : LogTarget} {env : WriteEnv} {m : LogMeta} {filter : Filter} {s : List Byte}

theorem prefix_header_small : GREASE_MAX_PREFIX_HEADER < SIZE_MODULUS := by decide

theorem header_whole (room : (headerText t.formats env m filter).length < GREASE_MAX_PREFIX_HEADER) :
    t.header env m filter = headerText t.formats env m filter := by
  have size := prefix_header_small
  rcases headerPrinted_fits t.formats env env.headerMem (by decide) size m filter (by omega) with
    ⟨_, fits⟩ | ⟨reached, _⟩
  · obtain ⟨counted, read⟩ := fits_putsHeader size fits
    simp only [header]
    rw [counted, read]
  · omega

theorem header_filled (exact : (headerText t.formats env m filter).length = GREASE_MAX_PREFIX_HEADER)
    (noNul : 0 ∉ headerText t.formats env m filter) :
    (t.header env m filter).length = (headerText t.formats env m filter).length ∧
      t.header env m filter ≠ headerText t.formats env m filter := by
  have size := prefix_header_small
  rcases headerPrinted_fits t.formats env env.headerMem (by decide) size m filter (by omega) with
    ⟨room, _⟩ | ⟨_, ⟨full, ends⟩ | ⟨n, beyond, le, _⟩⟩
  · omega
  · have count : (putsHeader t.formats env env.headerMem GREASE_MAX_PREFIX_HEADER m filter).2 =
        GREASE_MAX_PREFIX_HEADER := by
      rw [putsHeader_eq, full, sizeSub_of_le (Nat.zero_le _) size]
      rfl
    have nul := headerPrinted_nuls t.formats env env.headerMem GREASE_MAX_PREFIX_HEADER m filter _ ends
    constructor
    · simp only [header, mem_read_length]
      rw [count, exact]
    · intro same
      have whole : (putsHeader t.formats env env.headerMem GREASE_MAX_PREFIX_HEADER m filter).1.read
          (headerText t.formats env m filter).length = headerText t.formats env m filter := by
        rw [exact]
        simpa only [header, count] using same
      rw [putsHeader_eq] at whole
      exact read_ne_of_nul noNul (by rw [exact]; decide) nul whole
  · omega

theorem footerSpace_eq
    (room : (headerText t.formats env m filter).length < GREASE_MAX_PREFIX_HEADER) :
    t.footerSpace env m filter =
      GREASE_MAX_PREFIX_HEADER - (headerText t.formats env m filter).length := by
  rw [footerSpace, header_whole room, sizeSub_of_le (Nat.le_of_lt room) prefix_header_small]

theorem footer_length
    (room : (headerText t.formats env m filter).length < GREASE_MAX_PREFIX_HEADER)
    (fit : (headerText t.formats env m filter).length +
      (footerText t.formats env filter).length ≤ GREASE_MAX_PREFIX_HEADER) :
    (t.footer env m filter).length = (footerText t.formats env filter).length := by
  have space := footerSpace_eq room
  have size := prefix_header_small
  have total : (footerText t.formats env filter).length =
      (filterFooter env filter).length + (targetFooter t.formats env).length := List.length_append
  simp only [footer, mem_read_length]
  by_cases exact : (filterFooter env filter).length = t.footerSpace env m filter
  · rw [show sizeSub GREASE_MAX_PREFIX_HEADER (t.header env m filter).length =
      t.footerSpace env m filter from rfl, putsFooter_exact t.formats env _ filter (by omega) exact]
    omega
  · exact putsFooter_count t.formats env _ filter (sizeSub_lt _ _) (by omega) exact

theorem footer_whole
    (room : (headerText t.formats env m filter).length < GREASE_MAX_PREFIX_HEADER)
    (fit : (headerText t.formats env m filter).length +
      (footerText t.formats env filter).length ≤ GREASE_MAX_PREFIX_HEADER)
    (noNul : 0 ∉ footerText t.formats env filter) :
    t.footer env m filter = footerText t.formats env filter ↔
      (headerText t.formats env m filter).length + (footerText t.formats env filter).length <
          GREASE_MAX_PREFIX_HEADER ∧
        (filterFooter env filter = [] ∨ t.formats.postFormat.length = 0) := by
  have space := footerSpace_eq room
  have size := prefix_header_small
  rw [footer_whole_iff t env m filter (by omega) noNul (by omega), FooterFits, space]
  constructor
  · rintro (⟨short, alone⟩ | ⟨full, zero | blank⟩)
    · exact ⟨by omega, alone⟩
    · omega
    · have long := List.length_pos_iff.mpr blank
      rw [footerText, List.length_append] at fit
      omega
  · rintro ⟨short, alone⟩
    exact Or.inl ⟨by omega, alone⟩

theorem copied_stored (t : LogTarget) (afterRotate : Bool) :
    copied (t.stored afterRotate) = some afterRotate := by
  unfold stored
  split <;> rfl

theorem store_delim (t : LogTarget) (header s footer : List Byte) (b : BufId) :
    ((t.store header s footer).buffers b).delim = (t.buffers b).delim := by
  by_cases same : b = t.currentBuffer
  · subst same
    simp [store, current]
  · rw [store, setBuffer_other _ same]

theorem write_appends (o : Owner) {afterRotate : Bool} {created : List Byte}
    (delims : ∀ b, (t.buffers b).delim = created)
    (copies : copied (t.write o env s m filter).2.2 = some afterRotate) :
    (t.write o env s m filter).1.current.data =
      (if afterRotate then t.rotate.1 else t).current.data ++
        entryBytes (if s ≠ [] ∨ t.footer env m filter ≠ [] then created else [])
          (t.header env m filter) s (t.footer env m filter) := by
  have appends : ∀ t' : LogTarget, (∀ b, (t'.buffers b).delim = created) →
      (t'.store (t.header env m filter) s (t.footer env m filter)).current.data =
        t'.current.data ++ entryBytes (if s ≠ [] ∨ t.footer env m filter ≠ [] then created else [])
          (t.header env m filter) s (t.footer env m filter) := by
    intro t' delims'
    have one : (t'.store (t.header env m filter) s (t.footer env m filter)).current =
        t'.current.copyEntry (t.header env m filter) s (t.footer env m filter) := setBuffer_same _ _
    rw [one, copyEntry_data, show t'.current.delim = created from delims' _]
    simp only [entryBytes, List.append_assoc]
  obtain ⟨o', _, ⟨_, h⟩ | ⟨_, _, h⟩ | ⟨_, _, h⟩ | ⟨_, _, _, _, h⟩ | ⟨_, _, _, _, h⟩ | ⟨_, _, _, h⟩⟩ :=
    write_cases t o env s m filter <;> rw [h] at copies ⊢
  · cases copies
  · split at copies <;> cases copies
  · rw [copied_stored] at copies
    cases copies
    exact appends t delims
  · rw [copied_stored] at copies
    cases copies
    exact appends t.rotate.1 fun b => ((onlyClears_rotate t).delims b).trans (delims b)
  · cases copies
  · cases copies

theorem entrySame_iff (o : Owner) (headerMem footerMem : Mem) {log : SingleLog} {afterRotate : Bool}
    {created : List Byte} (delims : ∀ b, (t.buffers b).delim = created)
    (message : log.extraMeta.m = m ∧ log.buf.bytes = s)
    (copies : copied (t.write o env s m filter).2.2 = some afterRotate)
    (fit : (headerText t.formats env m filter).length + (footerText t.formats env filter).length ≤
      GREASE_MAX_PREFIX_HEADER)
    (noNul : 0 ∉ headerText t.formats env m filter ++ footerText t.formats env filter) :
    t.EntrySame o env (env.scratch headerMem footerMem) s m filter log afterRotate ↔
      t.EntryKept created env s m filter := by
  have noNulHeader : 0 ∉ headerText t.formats env m filter := fun nul =>
    noNul (List.mem_append_left _ nul)
  have noNulFooter : 0 ∉ footerText t.formats env filter := fun nul =>
    noNul (List.mem_append_right _ nul)
  have appended := write_appends o delims copies
  have emitted := overflowEntry_flatten t (env.scratch headerMem footerMem) log filter
  rw [message.1, message.2] at emitted
  constructor
  · rintro ⟨buffered, _⟩
    rw [appended, List.append_cancel_left_eq, entryText, entryBytes, entryBytes] at buffered
    simp only [List.append_assoc] at buffered
    have room : (headerText t.formats env m filter).length < GREASE_MAX_PREFIX_HEADER := by
      by_contra filled
      obtain ⟨length, differs⟩ := header_filled (t := t) (by omega) noNulHeader
      exact differs (List.append_inj buffered length).1
    rw [header_whole room] at buffered
    obtain ⟨footers, delim⟩ := List.append_inj (List.append_cancel_left
      (List.append_cancel_left buffered)) (footer_length room fit)
    obtain ⟨short, alone⟩ := (footer_whole room fit noNulFooter).mp footers
    rw [footers] at delim
    exact ⟨short, alone, delim⟩
  · rintro ⟨short, alone, delim⟩
    have room : (headerText t.formats env m filter).length < GREASE_MAX_PREFIX_HEADER := by omega
    have whole : ∀ hm fm, t.header (env.scratch hm fm) m filter = headerText t.formats env m filter ∧
        t.footer (env.scratch hm fm) m filter = footerText t.formats env filter := by
      intro hm fm
      have header : t.header (env.scratch hm fm) m filter = headerText t.formats env m filter :=
        header_whole room
      have room' : (headerText t.formats (env.scratch hm fm) m filter).length < GREASE_MAX_PREFIX_HEADER :=
        room
      have footer : t.footer (env.scratch hm fm) m filter = footerText t.formats env filter :=
        (footer_whole room' fit noNulFooter).mpr ⟨short, alone⟩
      exact ⟨header, footer⟩
    obtain ⟨header, footer⟩ := whole headerMem footerMem
    obtain ⟨header', footer'⟩ := whole env.headerMem env.footerMem
    constructor
    · rw [appended, show t.header env m filter = _ from header',
        show t.footer env m filter = _ from footer', delim]
      rfl
    · rw [emitted, header, footer]
      rfl

end LogTarget

namespace BankState
variable {s start : BankState}

theorem apply_delim (s : BankState) (a : BankAction) (b : BufId) :
    ((s.apply a).t.buffers b).delim = (s.t.buffers b).delim := by
  cases a with
  | write env text m filter =>
    have rotated := (LogTarget.onlyClears_rotate s.t).delims b
    obtain ⟨o', _, ⟨_, h⟩ | ⟨_, _, h⟩ | ⟨_, _, h⟩ | ⟨_, _, _, _, h⟩ | ⟨_, _, _, _, h⟩ | ⟨_, _, _, h⟩⟩ :=
      LogTarget.write_cases s.t s.o env text m filter <;> simp only [apply, h]
    · exact LogTarget.store_delim _ _ _ _ b
    · exact (LogTarget.store_delim _ _ _ _ b).trans rotated
    · exact rotated
    · exact rotated
  | writeOverflow env log filter =>
    exact (LogTarget.onlyClears_writeOverflow s.t s.o env log filter).delims b
  | rotate => exact (LogTarget.onlyClears_rotate s.t).delims b
  | flushAll doRotate nocallbacks =>
    exact (LogTarget.onlyClears_flushAll s.t s.o doRotate nocallbacks).delims b
  | writeCb => exact (LogTarget.onlyClears_writeCb s.t s.o).delims b
  | callV8LogCallback => exact (LogTarget.onlyClears_callV8LogCallback s.t s.o).delims b
  | disableWrites v => rfl
  | configure formats delim logCallbackSet => rfl
  | others o => rfl

theorem run_delims {actions : List BankAction} (new : start.Start)
    (run : Runs.Run Step start actions s) (b : BufId) : (s.t.buffers b).delim = start.t.delim := by
  obtain ⟨⟨kind, bufferSize, id, delim, formats, logCallbackSet, target⟩, _⟩ := new
  refine Runs.run_invariant (fun s => (s.t.buffers b).delim = start.t.delim) ?_ ?_ run
  · rw [target]
    rfl
  · rintro s a s' same ⟨_, rfl⟩
    exact (apply_delim s a b).trans same

/-- The condition holds for the delimiter given at creation, or else the two paths differ. -/
theorem entry_same_iff {actions : List BankAction} (new : start.Start)
    (run : Runs.Run Step start actions s) (env : WriteEnv) (headerMem footerMem : Mem)
    (text : List Byte) (m : LogMeta) (filter : Filter) (log : SingleLog)
    (message : log.extraMeta.m = m ∧ log.buf.bytes = text) (afterRotate : Bool)
    (copies : LogTarget.copied (s.t.write s.o env text m filter).2.2 = some afterRotate)
    (fit : (headerText s.t.formats env m filter).length +
      (footerText s.t.formats env filter).length ≤ GREASE_MAX_PREFIX_HEADER)
    (noNul : 0 ∉ headerText s.t.formats env m filter ++ footerText s.t.formats env filter) :
    s.t.EntrySame s.o env (env.scratch headerMem footerMem) text m filter log afterRotate ↔
      s.t.EntryKept start.t.delim env text m filter :=
  LogTarget.entrySame_iff s.o headerMem footerMem (run_delims new run) message copies fit noNul

def redelimited : BankState := (newBank 200 [10]).apply (.configure {} [59] false)

theorem redelimited_reached :
    Runs.Run Step (newBank 200 [10]) [.configure {} [59] false] redelimited :=
  Runs.run_one (step_apply _ (.configure {} [59] false) trivial)

theorem entry_same_line :
    redelimited.t.EntrySame {} plainEnv (plainEnv.scratch (fun _ => 1) fun _ => 1) [97] noMetaData {}
        (.ofData [97] noMetaData) false ↔
      redelimited.t.EntryKept [10] plainEnv [97] noMetaData {} :=
  entry_same_iff (newBank_start 200 [10]) redelimited_reached plainEnv (fun _ => 1) (fun _ => 1) [97]
    noMetaData {} (.ofData [97] noMetaData) ⟨rfl, rfl⟩ false (by decide +kernel) (by decide) (by decide)

/-- The buffers go on with the old delimiter; and without text and footer there is none, but
    for writeOverflow(). -/
theorem entry_differs :
    (¬ redelimited.t.EntrySame {} plainEnv plainEnv [97] noMetaData {} (.ofData [97] noMetaData)
      false) ∧
    ¬ (newBank 200 [10]).t.EntrySame {} plainEnv plainEnv [] noMetaData {} (.ofData [] noMetaData)
      false := by
  constructor
  · intro same
    have buffered := same.buffered
    revert buffered
    decide +kernel
  · intro same
    have buffered := same.buffered
    revert buffered
    decide +kernel

end BankState
end GreaseLog
