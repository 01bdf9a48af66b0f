import GreaseLog.Printing
import GreaseLog.SinkFrames

/- What the C client puts into a buffer (grease_client.c): the raw entry of
   _grease_logToRaw, and the text that grease_printf hands to grease_log. Both are
   compared with what the parser of the sink makes of them. -/
namespace GreaseLog

def SIZEOF_SINK_LOG_PREAMBLE : Nat := 4
def SIZEOF_RAW_LOG_LEN : Nat := 4
def OFFSETOF_ORIGIN : Nat := 8

inductive RawStatus where
  | ok
  | noBuffer
  deriving DecidableEq

structure RawResult where
  status : RawStatus
  /-- The memory at tobuf, on both sides of the capacity. -/
  tobuf : Option Mem
  buflen : Nat

def rawStores (defaultOrigin : OriginId) (padding : Fin 4 → Byte) (f : LogMeta) (s : List Byte) :
    List (Nat × List Byte) :=
  let len := UInt32.ofNat (s.length + SIZEOF_RAW_LOG_LEN + SIZEOF_SINK_LOG_PREAMBLE)
  let w := SIZEOF_SINK_LOG_PREAMBLE + SIZEOF_RAW_LOG_LEN
  [(0, bytes32 SINK_LOG_PREAMBLE), (SIZEOF_SINK_LOG_PREAMBLE, bytes32 len), (w, f.bytes padding),
    -- tobuf is cast before w is added to it
    (w * GREASE_RAWBUF_MIN_SIZE + OFFSETOF_ORIGIN, bytes32 defaultOrigin),
    (w + GREASE_RAWBUF_MIN_SIZE, s)]

/-- _grease_logToRaw; the capacity check is made in 64 bits. -/
def logToRaw (defaultOrigin : OriginId) (padding : Fin 4 → Byte) (f : Option LogMeta) (s : List Byte)
    (tobuf : Option Mem) (buflen : Nat) : RawResult :=
  match tobuf with
  | none => ⟨.noBuffer, none, buflen⟩
  | some mem =>
    if buflen < GREASE_RAWBUF_MIN_SIZE + s.length then ⟨.noBuffer, some mem, buflen⟩
    else
      let stores := rawStores defaultOrigin padding (f.getD noMetaData) s
      ⟨.ok, some (stores.foldl (fun mem store => mem.store store.1 store.2) mem), s.length⟩

/-- The parser makes one call for the datagram, with this entry. -/
def ParsedAs (rcvBufSize : Nat) (behind datagram : List Byte) (defaultOrigin : OriginId)
    (e : SinkEntry) : Prop :=
  ∃ call u, Parses rcvBufSize datagram behind (.start rcvBufSize datagram) [call] u ∧
    call.Delivers (e.body defaultOrigin)

section
variable (defaultOrigin : OriginId) (padding : Fin 4 → Byte) (f : Option LogMeta) (s : List Byte)
  (mem : Mem) (capacity : Nat)

/-- GREASE_OK: only the buffer was written, and it holds what has to be sent. -/
def RawSent (rcvBufSize : Nat) (behind : List Byte) : Prop :=
  let r := logToRaw defaultOrigin padding f s (some mem) capacity
  ∃ after, r.tobuf = some after ∧ (∀ i, capacity ≤ i → after i = mem i) ∧
    r.buflen = GREASE_CLIENT_HEADER_SIZE + GREASE_RAWBUF_MIN_SIZE + s.length ∧
    ParsedAs rcvBufSize behind (after.read r.buflen) defaultOrigin ⟨f.getD noMetaData, padding, s⟩

/-- The entry is in the buffer, or the buffer is refused and left alone. -/
def RawCorrect (rcvBufSize : Nat) (behind : List Byte) : Prop :=
  let r := logToRaw defaultOrigin padding f s (some mem) capacity
  (r.status = .ok → RawSent defaultOrigin padding f s mem capacity rcvBufSize behind) ∧
    (r.status ≠ .ok → r.status = .noBuffer ∧ r.tobuf = some mem)

theorem logToRaw_ok_iff :
    (logToRaw defaultOrigin padding f s (some mem) capacity).status = .ok ↔
      GREASE_RAWBUF_MIN_SIZE + s.length ≤ capacity := by
  simp only [logToRaw]
  split
  · next small => exact iff_of_false (by simp) (Nat.not_le.mpr small)
  · next large => exact iff_of_true rfl (Nat.not_lt.mp large)

theorem logToRaw_buflen (ok : GREASE_RAWBUF_MIN_SIZE + s.length ≤ capacity) :
    (logToRaw defaultOrigin padding f s (some mem) capacity).buflen = s.length := by
  rw [logToRaw, if_neg (Nat.not_lt.mpr ok)]

/-- What is to be sent is longer than the length that is reported. -/
theorem not_sent (ok : GREASE_RAWBUF_MIN_SIZE + s.length ≤ capacity) (rcvBufSize : Nat)
    (behind : List Byte) : ¬ RawSent defaultOrigin padding f s mem capacity rcvBufSize behind := by
  rintro ⟨after, _, _, size, _⟩
  rw [logToRaw_buflen defaultOrigin padding f s mem capacity ok, GREASE_CLIENT_HEADER_SIZE] at size
  omega

/-- The entry is right exactly where the buffer is refused. -/
theorem logToRaw_correct_iff (rcvBufSize : Nat) (behind : List Byte) :
    RawCorrect defaultOrigin padding f s mem capacity rcvBufSize behind ↔
      capacity < GREASE_RAWBUF_MIN_SIZE + s.length := by
  constructor
  · rintro ⟨sent, _⟩
    by_contra large
    have ok := Nat.not_lt.mp large
    exact not_sent defaultOrigin padding f s mem capacity ok rcvBufSize behind
      (sent ((logToRaw_ok_iff defaultOrigin padding f s mem capacity).mpr ok))
  · intro small
    have refused : logToRaw defaultOrigin padding f s (some mem) capacity =
        ⟨.noBuffer, some mem, capacity⟩ := if_pos small
    constructor
    · intro ok
      rw [refused] at ok
      cases ok
    · intro _
      rw [refused]
      exact ⟨rfl, rfl⟩

/-- A text of one byte, and a buffer with room to spare. -/
theorem logToRaw_sends_text_only :
    ¬ ∀ (s : List Byte) (mem : Mem) (capacity : Nat), s ≠ [] →
      RawCorrect 5 (fun _ => 0) none s mem capacity 131072 [] := by
  intro correct
  have room : GREASE_RAWBUF_MIN_SIZE + ([97] : List Byte).length ≤ 1000 := by decide
  exact not_sent 5 (fun _ => 0) none [97] (fun _ => 0) 1000 room 131072 []
    ((correct [97] (fun _ => 0) 1000 (by decide)).1 rfl)

/-! What the accepted entries come to. -/

def rawAfter (defaultOrigin : OriginId) (padding : Fin 4 → Byte) (f : LogMeta) (s : List Byte)
    (mem : Mem) : Mem :=
  (rawStores defaultOrigin padding f s).foldl (fun mem store => mem.store store.1 store.2) mem

theorem logToRaw_tobuf (ok : GREASE_RAWBUF_MIN_SIZE + s.length ≤ capacity) :
    (logToRaw defaultOrigin padding f s (some mem) capacity).tobuf =
      some (rawAfter defaultOrigin padding (f.getD noMetaData) s mem) := by
  rw [logToRaw, if_neg (Nat.not_lt.mpr ok)]
  rfl

/-- The size in the header, which does not count the meta. -/
def rawLen (s : List Byte) : UInt32 :=
  UInt32.ofNat (s.length + SIZEOF_RAW_LOG_LEN + SIZEOF_SINK_LOG_PREAMBLE)

theorem read_store_below (mem : Mem) {n offset : Nat} (below : n ≤ offset) (bytes : List Byte) :
    (mem.store offset bytes).read n = mem.read n := by
  simp only [Mem.read]
  apply List.map_congr_left
  intro i inside
  have before : i < n := List.mem_range.mp inside
  exact store_outside mem (Or.inl (by omega))

theorem rawAfter_header (m : LogMeta) : (rawAfter defaultOrigin padding m s mem).read 8 =
    bytes32 SINK_LOG_PREAMBLE ++ bytes32 (rawLen s) := by
  have none : mem.read ([] : List Byte).length = [] := rfl
  have preamble := read_store_append none (bytes32 SINK_LOG_PREAMBLE)
  have header := read_store_append preamble (bytes32 (rawLen s))
  have above : ∀ (mem : Mem) (offset : Nat) (bytes : List Byte), 8 ≤ offset →
      (mem.store offset bytes).read 8 = mem.read 8 :=
    fun mem _ bytes below => read_store_below mem below bytes
  simp only [rawAfter, rawStores, List.foldl_cons, List.foldl_nil]
  rw [above _ _ _ (by decide), above _ _ _ (by decide), above _ _ _ (by decide)]
  exact header

theorem word32_read (mem : Mem) {n k : Nat} (inside : k + 4 ≤ n) (rest : List Byte) :
    word32 (mem.read n ++ rest) k = word32 (mem.read (k + 4)) k := by
  have length : (mem.read n).length = n := mem_read_length mem n
  have whole : (mem.read n).take n = mem.read n := List.take_of_length_le (by omega)
  calc word32 (mem.read n ++ rest) k
      = word32 (mem.read n) k := by
        have front := word32_take inside rest (Nat.le_of_eq length.symm)
        rw [whole] at front
        exact front
    _ = word32 ((mem.read n).take (k + 4) ++ []) k := (word32_take (by omega) [] (by omega)).symm
    _ = word32 (mem.read (k + 4)) k := by rw [List.append_nil, read_take mem inside]

/-- Nothing of it is found by the parser in the bytes that are to be sent. -/
theorem raw_never_parsed (m : LogMeta) (text : s ≠ []) {rcvBufSize : Nat}
    (small : s.length + 8 < 2 ^ 32) (fits : s.length ≤ rcvBufSize) (behind : List Byte) :
    let datagram := (rawAfter defaultOrigin padding m s mem).read s.length
    ∃ u, Parses rcvBufSize datagram behind (.start rcvBufSize datagram) [] u := by
  intro datagram
  have length : datagram.length = s.length := mem_read_length _ _
  have some := List.length_pos_of_ne_nil text
  have whole : datagram.length ≤ rcvBufSize := by rw [length]; exact fits
  obtain ⟨received, first⟩ := recvCnt_whole whole
  have cursor : Cursor rcvBufSize datagram .needPreamble 0 (.start rcvBufSize datagram) := start_cursor
  have header := rawAfter_header defaultOrigin padding s mem m
  by_cases crumbs : s.length < 4
  · obtain ⟨t, step, done⟩ := next_crumbs behind cursor (by omega) (by omega)
    exact ⟨t, .turn step (.ended (next_ended (by omega)))⟩
  · have preamble : headerWord rcvBufSize datagram 0 = SINK_LOG_PREAMBLE := by
      rw [headerWord, rawBuffer_whole whole, word32_read _ (by omega),
        ← word32_read _ (show 0 + 4 ≤ 8 by decide) [], header, List.append_nil, word32_front]
    obtain ⟨t, toEntry, atEntry, known⟩ := next_preamble behind cursor (by omega) (by omega) preamble
    by_cases headerOnly : s.length ≤ 8
    · exact ⟨t, .turn toEntry (.ended (next_ended (by rw [atEntry.walk]; omega)))⟩
    · have size : t.entrySize = rawLen s := by
        rw [known (by omega), headerSize, rawBuffer_whole whole, word32_read _ (by omega),
          ← word32_read _ (show 0 + 4 + 4 ≤ 8 by decide) [], header, List.append_nil]
        have second := word32_skip32 SINK_LOG_PREAMBLE (bytes32 (rawLen s)) 0
        rw [second, ← List.append_nil (bytes32 (rawLen s)), word32_front]
      -- the header counts itself and the text, of which the header is not there any more
      have counted : t.entrySize.toNat = s.length + 8 := by
        rw [size, rawLen, UInt32.toNat_ofNat']
        exact Nat.mod_eq_of_lt small
      obtain ⟨u, past, -, walk, -⟩ := next_cut behind atEntry (by omega) (by omega) (by omega)
      exact ⟨u, .turn toEntry (.turn past (.ended (next_ended (by rw [walk]; omega))))⟩

/-- It stays inside the buffer exactly if there is room for the whole entry and for
    the stamp, which is behind the header of 80 entries. -/
theorem raw_inside_iff (m : LogMeta) (text : s ≠ []) :
    (∀ mem i, capacity ≤ i → rawAfter defaultOrigin padding m s mem i = mem i) ↔
      GREASE_CLIENT_HEADER_SIZE + GREASE_RAWBUF_MIN_SIZE + s.length ≤ capacity ∧
        8 * GREASE_RAWBUF_MIN_SIZE + OFFSETOF_ORIGIN + 4 ≤ capacity := by
  have some := List.length_pos_of_ne_nil text
  have metaSize := m.bytes_length padding
  simp only [GREASE_CLIENT_HEADER_SIZE, GREASE_RAWBUF_MIN_SIZE, OFFSETOF_ORIGIN] at metaSize ⊢
  simp only [rawAfter, rawStores, List.foldl_cons, List.foldl_nil, SIZEOF_SINK_LOG_PREAMBLE,
    SIZEOF_RAW_LOG_LEN, GREASE_RAWBUF_MIN_SIZE, OFFSETOF_ORIGIN]
  constructor
  · intro inside
    by_contra short
    by_cases room : 88 + s.length ≤ capacity
    · have stamp := inside (fun _ => (bytes32 defaultOrigin).getD 3 0 + 1) 651 (by omega)
      rw [store_outside _ (Or.inr (by omega)), store_inside _ (by omega) (by simp)] at stamp
      simp at stamp
    · have last : s.length - 1 < s.length := by omega
      have written := inside (fun _ => s[s.length - 1] + 1) (87 + s.length) (by omega)
      rw [store_inside _ (by omega) (by omega)] at written
      have index : 87 + s.length - (4 + 4 + 80) = s.length - 1 := by omega
      simp [index] at written
  · rintro ⟨room, stamp⟩ mem i behind
    rw [store_outside _ (Or.inr (by omega)), store_outside _ (Or.inr (by simp; omega)),
      store_outside _ (Or.inr (by omega)), store_outside _ (Or.inr (by simp; omega)),
      store_outside _ (Or.inr (by simp; omega))]

end

/-! grease_printf. -/

def GREASE_C_MACRO_MAX_MESSAGE : Nat := 250

/-- The bytes that grease_printf hands to grease_log for a formatted text, and what
    an earlier call has left in _grease_logstr_buffer. -/
def printfPayload (buffer : Mem) (text : List Byte) : List Byte :=
  let buffer := snprintf buffer 0 GREASE_C_MACRO_MAX_MESSAGE text
  let len := text.length % 2 ^ 32
  buffer.read (if len > GREASE_C_MACRO_MAX_MESSAGE then GREASE_C_MACRO_MAX_MESSAGE else len)

def cleanPrefix (text : List Byte) : List Byte :=
  text.take (min text.length GREASE_C_MACRO_MAX_MESSAGE)

def SinkCall.logPText : SinkCall → Option (List Byte)
  | .logFromRaw base len =>
    let l := (len - GREASE_RAWBUF_MIN_SIZE).bmod (2 ^ 32)
    if ((GREASE_RAWBUF_MIN_SIZE : Int) ≤ len ∨ len < 0) ∧ 0 < l then
      some ((base.drop GREASE_RAWBUF_MIN_SIZE).take l.toNat)
    else none
  | .pingAck => none

def LoggedTexts (rcvBufSize : Nat) (behind datagram : List Byte) (texts : List (List Byte)) : Prop :=
  ∃ calls u, Parses rcvBufSize datagram behind (.start rcvBufSize datagram) calls u ∧
    calls.filterMap SinkCall.logPText = texts

theorem logFromRaw_text (T : FilterTable) (opts : Opts) {base text : List Byte} {len : Int}
    (given : (SinkCall.logFromRaw base len).logPText = some text) :
    logFromRaw T opts base len = logP T opts (.ofBytes base) text := by
  simp only [SinkCall.logPText] at given
  split at given
  · next both =>
    obtain rfl := Option.some.inj given
    simp only [logFromRaw, if_pos both.1, if_pos both.2]
  · cases given

theorem read_store_front (mem : Mem) {bytes : List Byte} {n : Nat} (le : n ≤ bytes.length) :
    (mem.store 0 bytes).read n = bytes.take n := by
  have all : (mem.store 0 bytes).read bytes.length = bytes :=
    read_store_append (show mem.read ([] : List Byte).length = [] from rfl) bytes
  rw [← read_take _ le, all]

theorem printfPayload_eq (buffer : Mem) {text : List Byte} (int : text.length < 2 ^ 31) :
    printfPayload buffer text =
      if text.length < GREASE_C_MACRO_MAX_MESSAGE then text else text.take 249 ++ [0] := by
  have cast : text.length % 2 ^ 32 = text.length := Nat.mod_eq_of_lt (by omega)
  have stored : snprintf buffer 0 250 text = buffer.store 0 (text.take 249 ++ [0]) := rfl
  have max : GREASE_C_MACRO_MAX_MESSAGE = 250 := rfl
  simp only [printfPayload, cast, max, stored]
  by_cases fits : text.length < 250
  · have whole : text.take 249 = text := List.take_of_length_le (by omega)
    rw [whole, if_neg (by omega), if_pos fits, read_store_front _ (by simp), List.take_left]
  · have length : (text.take 249 ++ [0]).length = 250 := by
      rw [List.length_append, List.length_take, List.length_singleton]
      omega
    have len : (if text.length > 250 then 250 else text.length) = 250 := by
      split <;> omega
    have read := read_store_front buffer (Nat.le_refl (text.take 249 ++ [0]).length)
    rw [length] at read
    rw [len, if_neg fits, read, ← length, List.take_length]

/-- The NUL of vsnprintf is in the payload of every text that does not fit. -/
theorem printfPayload_clean_iff (buffer : Mem) {text : List Byte} (int : text.length < 2 ^ 31) :
    printfPayload buffer text = cleanPrefix text ↔
      text.length < GREASE_C_MACRO_MAX_MESSAGE ∨ text[249]? = some 0 := by
  rw [printfPayload_eq buffer int, cleanPrefix]
  by_cases fits : text.length < GREASE_C_MACRO_MAX_MESSAGE
  · rw [if_pos fits, Nat.min_eq_left (Nat.le_of_lt fits), List.take_length]
    exact iff_of_true rfl (Or.inl fits)
  · have long : 249 < text.length := by
      unfold GREASE_C_MACRO_MAX_MESSAGE at fits
      omega
    have split : text.take GREASE_C_MACRO_MAX_MESSAGE = text.take 249 ++ [text[249]] :=
      List.take_succ_eq_append_getElem long
    rw [if_neg fits, Nat.min_eq_right (Nat.le_of_not_lt fits), split, List.append_cancel_left_eq,
      List.getElem?_eq_getElem long]
    simp [fits, eq_comm]

theorem lone_frame (defaultOrigin : OriginId) (e : SinkEntry) (rcvBufSize : Nat) (behind : List Byte)
    (fits : (e.frame defaultOrigin).length ≤ rcvBufSize)
    (message : (e.frame defaultOrigin).length ≤ GREASE_MAX_MESSAGE_SIZE) :
    ParsedAs rcvBufSize behind (e.frame defaultOrigin) defaultOrigin e := by
  generalize isDatagram : e.frame defaultOrigin = datagram at fits message
  have split : datagram = [] ++ (e.frame defaultOrigin ++ []) := by
    rw [List.append_nil, isDatagram, List.nil_append]
  have cursor : Cursor rcvBufSize datagram .needPreamble ([] : List Byte).length
      (.start rcvBufSize datagram) := start_cursor
  obtain ⟨t, call, after, delivers, parses⟩ := parse_frame behind fits message split cursor
  refine ⟨call, t, parses [] t (.ended (next_ended ?_)), delivers⟩
  rw [after.walk, (recvCnt_whole fits).1, List.nil_append, isDatagram]

theorem delivered_text {call : SinkCall} {defaultOrigin : OriginId} {e : SinkEntry}
    (delivers : call.Delivers (e.body defaultOrigin)) (small : e.text.length < 2 ^ 31) :
    call.logPText = if e.text = [] then none else some e.text := by
  obtain ⟨behind, rfl⟩ := delivers
  have length : ((e.body defaultOrigin).length : Int) - GREASE_RAWBUF_MIN_SIZE = e.text.length := by
    rw [body_length]
    omega
  have rest : (((e.body defaultOrigin).length : Int) - GREASE_RAWBUF_MIN_SIZE).bmod (2 ^ 32) =
      e.text.length := by
    rw [length]
    exact int_small small
  have accepted : (GREASE_RAWBUF_MIN_SIZE : Int) ≤ (e.body defaultOrigin).length := by
    rw [body_length]
    omega
  have body : ((e.body defaultOrigin ++ behind).drop GREASE_RAWBUF_MIN_SIZE).take e.text.length =
      e.text := by
    rw [SinkEntry.body, List.append_assoc, List.drop_left' (LogMeta.bytes_length _ e.padding),
      List.take_left]
  simp only [SinkCall.logPText, rest, accepted, true_or, true_and, Int.toNat_natCast, body]
  by_cases empty : e.text = []
  · simp [empty]
  · have some := List.length_pos_of_ne_nil empty
    rw [if_neg empty, if_pos (by omega)]

/-- A short text comes out of the parser as it was sent; an empty one does not come
    to logP. -/
theorem sink_texts (defaultOrigin : OriginId) (padding : Fin 4 → Byte) (m : LogMeta) {s : List Byte}
    (short : s.length ≤ GREASE_C_MACRO_MAX_MESSAGE) {rcvBufSize : Nat}
    (room : GREASE_CLIENT_HEADER_SIZE + GREASE_RAWBUF_MIN_SIZE + GREASE_C_MACRO_MAX_MESSAGE ≤ rcvBufSize)
    (behind : List Byte) (texts : List (List Byte)) :
    LoggedTexts rcvBufSize behind (logToSink defaultOrigin padding m s) texts ↔
      texts = if s = [] then [] else [s] := by
  have length := logToSink_length defaultOrigin padding m s
  simp only [GREASE_CLIENT_HEADER_SIZE, GREASE_RAWBUF_MIN_SIZE, GREASE_C_MACRO_MAX_MESSAGE] at short room
  have datagram : logToSink defaultOrigin padding m s =
      (SinkEntry.mk m padding s).frame defaultOrigin := rfl
  rw [datagram] at length ⊢
  obtain ⟨call, u, parses, delivers⟩ := lone_frame defaultOrigin ⟨m, padding, s⟩ rcvBufSize behind
    (by omega) (by unfold GREASE_MAX_MESSAGE_SIZE; omega)
  have text := delivered_text delivers (show s.length < 2 ^ 31 by omega)
  have logged : [call].filterMap SinkCall.logPText = if s = [] then [] else [s] := by
    rw [List.filterMap_cons, text]
    by_cases empty : s = []
    · simp [empty]
    · simp [empty]
  constructor
  · rintro ⟨calls, u', parses', rfl⟩
    obtain ⟨rfl, _⟩ := parses_unique parses parses'
    exact logged
  · rintro rfl
    exact ⟨[call], u, parses, logged⟩

/-- grease_printf hands over a clean prefix, and the sink passes it on to logP, exactly
    when the text fits or has a NUL of its own where it is cut. -/
theorem printf_clean_iff (buffer : Mem) {text : List Byte} (int : text.length < 2 ^ 31)
    (defaultOrigin : OriginId) (padding : Fin 4 → Byte) (m : LogMeta) {rcvBufSize : Nat}
    (room : GREASE_CLIENT_HEADER_SIZE + GREASE_RAWBUF_MIN_SIZE + GREASE_C_MACRO_MAX_MESSAGE ≤ rcvBufSize)
    (behind : List Byte) :
    (printfPayload buffer text = cleanPrefix text ∧
        LoggedTexts rcvBufSize behind
          (logToSink defaultOrigin padding m (printfPayload buffer text))
          (if cleanPrefix text = [] then [] else [cleanPrefix text])) ↔
      text.length < GREASE_C_MACRO_MAX_MESSAGE ∨ text[249]? = some 0 := by
  rw [← printfPayload_clean_iff buffer int]
  constructor
  · rintro ⟨clean, _⟩
    exact clean
  · intro clean
    have short : (cleanPrefix text).length ≤ GREASE_C_MACRO_MAX_MESSAGE := by
      rw [cleanPrefix, List.length_take]
      omega
    rw [clean]
    exact ⟨rfl, (sink_texts defaultOrigin padding m short room behind _).mpr rfl⟩

theorem printf_clean_iff_hi :
    (printfPayload (fun _ => 7) [104, 105] = cleanPrefix [104, 105] ∧
      LoggedTexts 131072 [] (logToSink 5 (fun _ => 0) noMetaData
        (printfPayload (fun _ => 7) [104, 105]))
        (if cleanPrefix [104, 105] = [] then [] else [cleanPrefix [104, 105]])) ↔
      ([104, 105] : List Byte).length < GREASE_C_MACRO_MAX_MESSAGE ∨
        ([104, 105] : List Byte)[249]? = some 0 :=
  printf_clean_iff (fun _ => 7) (by decide) 5 (fun _ => 0) noMetaData (by decide) []

/-- 250 bytes: the last one is lost to the NUL. -/
theorem printf_sends_nul :
    ¬ ∀ (buffer : Mem) (text : List Byte), text.length < 2 ^ 31 →
      printfPayload buffer text = cleanPrefix text := by
  intro clean
  have length : (List.replicate 250 (97 : Byte)).length < 2 ^ 31 := by
    rw [List.length_replicate]
    decide
  rcases (printfPayload_clean_iff (fun _ => 0) length).mp (clean (fun _ => 0) _ length) with
    fits | nul
  · rw [List.length_replicate] at fits
    exact absurd fits (by decide)
  · rw [List.getElem?_replicate_of_lt (by decide)] at nul
    exact absurd nul (by decide)

end GreaseLog
