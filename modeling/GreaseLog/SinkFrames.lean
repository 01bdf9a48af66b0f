import GreaseLog.SinkParser

/- The wire format of the sink in both directions: frames that were put into one
   datagram come out as one call of logFromRaw each, and a frame that the datagram
   cuts off leaves nothing, neither there nor in the datagrams after it. -/
namespace GreaseLog

structure SinkEntry where
  m : LogMeta
  padding : Fin 4 → Byte
  text : List Byte

def SinkEntry.body (defaultOrigin : OriginId) (e : SinkEntry) : List Byte :=
  LogMeta.bytes { e.m with origin := defaultOrigin } e.padding ++ e.text

def SinkEntry.frame (defaultOrigin : OriginId) (e : SinkEntry) : List Byte :=
  logToSink defaultOrigin e.padding e.m e.text

structure Datagram where
  entries : List SinkEntry
  next : SinkEntry
  cut : Nat

def Datagram.bytes (defaultOrigin : OriginId) (d : Datagram) : List Byte :=
  d.entries.flatMap (SinkEntry.frame defaultOrigin) ++ (d.next.frame defaultOrigin).take d.cut

/-- The last entry has a size that 32 bits can hold and is not all there; the datagram
    fits the two limits. -/
structure Datagram.Fits (defaultOrigin : OriginId) (rcvBufSize : Nat) (d : Datagram) : Prop where
  nextSize : d.next.text.length + GREASE_RAWBUF_MIN_SIZE < 2 ^ 32
  proper : d.cut < (d.next.frame defaultOrigin).length
  received : (d.bytes defaultOrigin).length ≤ rcvBufSize
  message : (d.bytes defaultOrigin).length ≤ GREASE_MAX_MESSAGE_SIZE

def SinkCall.Delivers (call : SinkCall) (body : List Byte) : Prop :=
  ∃ behind, call = .logFromRaw (body ++ behind) body.length

/-- What the next datagram finds in memory: header_temp and entry_size are not
    cleared, temp_buffer_entry is there for good. -/
def SinkWalk.startFrom (rcvBufSize : Nat) (datagram : List Byte) (left : SinkWalk) : SinkWalk :=
  { SinkWalk.start rcvBufSize datagram with
    headerTemp := left.headerTemp
    tempBufferEntry := left.tempBufferEntry
    entrySize := left.entrySize }

inductive Serves (rcvBufSize : Nat) (behind : List Byte) :
    SinkWalk → List (List Byte) → List SinkCall → Prop where
  | none {left : SinkWalk} : Serves rcvBufSize behind left [] []
  | datagram {left u : SinkWalk} {d : List Byte} {ds : List (List Byte)}
      {calls others : List SinkCall}
      (parses : Parses rcvBufSize d behind (.startFrom rcvBufSize d left) calls u)
      (rest : Serves rcvBufSize behind u ds others) :
      Serves rcvBufSize behind left (d :: ds) (calls ++ others)

variable {rcvBufSize : Nat} {datagram behind : List Byte} {s t u : SinkWalk} {p : Nat}
  {defaultOrigin : OriginId}

theorem serves_unique {left : SinkWalk} {ds : List (List Byte)} {calls calls' : List SinkCall}
    (one : Serves rcvBufSize behind left ds calls)
    (other : Serves rcvBufSize behind left ds calls') : calls = calls' := by
  induction one generalizing calls' with
  | none =>
    cases other
    rfl
  | datagram parses rest ih =>
    cases other with
    | datagram parses' rest' =>
      obtain ⟨rfl, rfl⟩ := parses_unique parses parses'
      rw [ih rest']

theorem body_length (e : SinkEntry) :
    (e.body defaultOrigin).length = GREASE_RAWBUF_MIN_SIZE + e.text.length := by
  rw [SinkEntry.body, List.length_append, LogMeta.bytes_length]

theorem frame_eq (e : SinkEntry) : e.frame defaultOrigin = bytes32 SINK_LOG_PREAMBLE ++
    (bytes32 (UInt32.ofNat (e.text.length + GREASE_RAWBUF_MIN_SIZE)) ++ e.body defaultOrigin) := rfl

theorem frame_length (e : SinkEntry) :
    (e.frame defaultOrigin).length = 8 + (e.body defaultOrigin).length := by
  simp only [frame_eq, List.length_append, bytes32_length]
  omega

theorem frame_word (e : SinkEntry) (rest : List Byte) :
    word32 (e.frame defaultOrigin ++ rest) 0 = SINK_LOG_PREAMBLE := by
  rw [frame_eq, List.append_assoc, word32_front]

theorem frame_size (e : SinkEntry) (rest : List Byte) :
    word32 (e.frame defaultOrigin ++ rest) 4 =
      UInt32.ofNat (e.text.length + GREASE_RAWBUF_MIN_SIZE) := by
  rw [frame_eq, List.append_assoc, List.append_assoc]
  exact (word32_skip32 SINK_LOG_PREAMBLE _ 0).trans (word32_front _ _)

theorem frame_drop (e : SinkEntry) (rest : List Byte) :
    (e.frame defaultOrigin ++ rest).drop 8 = e.body defaultOrigin ++ rest := by
  rw [frame_eq, List.append_assoc, List.append_assoc, drop_block (bytes32_length _) _ 4,
    drop_block (bytes32_length _) _ 0, List.drop_zero]

theorem word32_take {base : List Byte} {cut k : Nat} (enough : k + 4 ≤ cut) (rest : List Byte)
    (there : cut ≤ base.length) : word32 (base.take cut ++ rest) k = word32 base k := by
  have front : ∀ others, word32 (base.take cut ++ others) k = word32 (base.take cut) (0 + k) :=
    fun others => word32_inside (p := 0) (by rw [List.length_take]; omega)
  rw [front rest, ← front (base.drop cut), List.take_append_drop]

theorem rawBuffer_whole (fits : datagram.length ≤ rcvBufSize) :
    rawBuffer rcvBufSize datagram 0 =
      datagram ++ List.replicate (rcvBufSize - datagram.length) 0 := by
  simp only [rawBuffer, Nat.zero_mul, List.drop_zero]
  rw [List.take_of_length_le fits]

theorem recvCnt_whole (fits : datagram.length ≤ rcvBufSize) :
    recvCnt rcvBufSize datagram = datagram.length ∧ inFirst rcvBufSize datagram = datagram.length := by
  have all : recvCnt rcvBufSize datagram = datagram.length := by
    simp only [recvCnt, SINK_NBUFFERS]
    omega
  exact ⟨all, by rw [inFirst, all]; omega⟩

theorem rawBuffer_behind {before rest : List Byte} (fits : datagram.length ≤ rcvBufSize)
    (split : datagram = before ++ rest) :
    ∃ zeros, (rawBuffer rcvBufSize datagram 0).drop before.length = rest ++ zeros := by
  refine ⟨List.replicate (rcvBufSize - datagram.length) 0, ?_⟩
  calc (rawBuffer rcvBufSize datagram 0).drop before.length
      = (before ++ (rest ++ List.replicate (rcvBufSize - datagram.length) 0)).drop before.length := by
        rw [rawBuffer_whole fits, ← List.append_assoc, ← split]
    _ = rest ++ List.replicate (rcvBufSize - datagram.length) 0 := List.drop_left

theorem word32_drop (base : List Byte) (n k : Nat) : word32 (base.drop n) k = word32 base (n + k) := by
  rw [word32, List.drop_drop, word32]

theorem parse_frame (behind : List Byte) {before rest : List Byte} {e : SinkEntry}
    (fits : datagram.length ≤ rcvBufSize) (message : datagram.length ≤ GREASE_MAX_MESSAGE_SIZE)
    (split : datagram = before ++ (e.frame defaultOrigin ++ rest))
    (cursor : Cursor rcvBufSize datagram .needPreamble before.length s) :
    ∃ t call, Cursor rcvBufSize datagram .needPreamble
        (before ++ e.frame defaultOrigin).length t ∧ call.Delivers (e.body defaultOrigin) ∧
      ∀ calls u, Parses rcvBufSize datagram behind t calls u →
        Parses rcvBufSize datagram behind s (call :: calls) u := by
  obtain ⟨received, first⟩ := recvCnt_whole fits
  obtain ⟨zeros, view⟩ := rawBuffer_behind fits split
  have body : (e.body defaultOrigin).length = 80 + e.text.length := body_length e
  have length : datagram.length =
      before.length + (8 + (e.body defaultOrigin).length) + rest.length := by
    rw [split, List.length_append, List.length_append, frame_length]
    omega
  rw [List.append_assoc] at view
  have word : headerWord rcvBufSize datagram before.length = SINK_LOG_PREAMBLE := by
    rw [headerWord, ← Nat.add_zero before.length, ← word32_drop, view, frame_word]
  have size : headerSize rcvBufSize datagram before.length =
      UInt32.ofNat (e.text.length + GREASE_RAWBUF_MIN_SIZE) := by
    rw [headerSize, ← word32_drop, view, frame_size]
  unfold GREASE_MAX_MESSAGE_SIZE at message
  have entry : (headerSize rcvBufSize datagram before.length).toNat = (e.body defaultOrigin).length := by
    rw [size, GREASE_RAWBUF_MIN_SIZE, UInt32.toNat_ofNat']
    omega
  obtain ⟨t, toEntry, atEntry, known⟩ := next_preamble behind cursor (by omega)
    (by omega) word
  have entrySize : t.entrySize = headerSize rcvBufSize datagram before.length := known (by omega)
  obtain ⟨t', past, atHeader⟩ := next_entry behind atEntry
    (by omega) (by omega) (by rw [entrySize]; omega)
  rw [entrySize, entry] at atHeader
  have inBody : (rawBuffer rcvBufSize datagram 0 ++ behind).drop (before.length + 8) =
      e.body defaultOrigin ++ (rest ++ zeros ++ behind) := by
    rw [List.drop_append_of_le_length (by rw [rawBuffer_length]; omega), ← List.drop_drop, view,
      frame_drop]
    simp only [List.append_assoc]
  rw [inBody, entrySize, entryLen_small entry (by omega)] at past
  have position : (before ++ e.frame defaultOrigin).length =
      before.length + 8 + (e.body defaultOrigin).length := by
    rw [List.length_append, frame_length]
    omega
  refine ⟨t', _, ?_, ⟨rest ++ zeros ++ behind, rfl⟩, fun calls u parses => ?_⟩
  · rw [position]
    exact atHeader
  · exact .turn toEntry (.turn past parses)

/-- The beginning of a frame at the end of the datagram: nothing comes of it. -/
theorem parse_cut (behind : List Byte) {before : List Byte} {e : SinkEntry} {cut : Nat}
    (fits : datagram.length ≤ rcvBufSize)
    (split : datagram = before ++ (e.frame defaultOrigin).take cut)
    (size : e.text.length + GREASE_RAWBUF_MIN_SIZE < 2 ^ 32)
    (proper : cut < (e.frame defaultOrigin).length)
    (cursor : Cursor rcvBufSize datagram .needPreamble before.length s) :
    ∃ u, Parses rcvBufSize datagram behind s [] u := by
  obtain ⟨received, first⟩ := recvCnt_whole fits
  obtain ⟨zeros, view⟩ := rawBuffer_behind fits split
  have length : datagram.length = before.length + cut := by
    rw [split, List.length_append, List.length_take, Nat.min_eq_left (Nat.le_of_lt proper)]
  have finished : ∀ {t calls}, s.next rcvBufSize datagram behind = some (t, calls) →
      (recvCnt rcvBufSize datagram : Int) ≤ t.walk →
      Parses rcvBufSize datagram behind s (calls ++ []) t :=
    fun some done => .turn some (.ended (next_ended done))
  rcases Nat.eq_zero_or_pos cut with rfl | some
  · exact ⟨s, .ended (next_ended (by rw [cursor.walk]; omega))⟩
  · by_cases crumbs : cut < 4
    · obtain ⟨t, step, done⟩ := next_crumbs behind cursor (by omega) (by omega)
      exact ⟨t, finished step (by omega)⟩
    · have word : headerWord rcvBufSize datagram before.length = SINK_LOG_PREAMBLE := by
        rw [headerWord, ← Nat.add_zero before.length, ← word32_drop, view,
          word32_take (by omega) _ (Nat.le_of_lt proper), ← List.append_nil (e.frame _), frame_word]
      obtain ⟨t, toEntry, atEntry, known⟩ := next_preamble behind cursor (by omega)
        (by omega) word
      by_cases headerOnly : cut ≤ 8
      · exact ⟨t, finished toEntry (by rw [atEntry.walk]; omega)⟩
      · have entrySize : t.entrySize.toNat = (e.body defaultOrigin).length := by
          rw [known (by omega), headerSize, ← word32_drop, view,
            word32_take (by omega) _ (Nat.le_of_lt proper), ← List.append_nil (e.frame _), frame_size,
            UInt32.toNat_ofNat', Nat.mod_eq_of_lt size, body_length, Nat.add_comm]
        rw [frame_length] at proper
        obtain ⟨u, past, -, walk, -⟩ := next_cut behind atEntry (by omega) (by omega)
          (by omega)
        exact ⟨u, .turn toEntry (.turn past (.ended (next_ended (by rw [walk]; omega))))⟩

theorem parse_frames (behind before : List Byte) {entries : List SinkEntry} {next : SinkEntry}
    {cut : Nat} (fits : datagram.length ≤ rcvBufSize) (message : datagram.length ≤ GREASE_MAX_MESSAGE_SIZE)
    (split : datagram = before ++ (entries.flatMap (SinkEntry.frame defaultOrigin) ++
      (next.frame defaultOrigin).take cut))
    (size : next.text.length + GREASE_RAWBUF_MIN_SIZE < 2 ^ 32)
    (proper : cut < (next.frame defaultOrigin).length)
    (cursor : Cursor rcvBufSize datagram .needPreamble before.length s) :
    ∃ calls u, Parses rcvBufSize datagram behind s calls u ∧
      List.Forall₂ SinkCall.Delivers calls (entries.map (SinkEntry.body defaultOrigin)) := by
  induction entries generalizing before s with
  | nil =>
    obtain ⟨u, parses⟩ := parse_cut behind fits (by simpa using split) size proper cursor
    exact ⟨[], u, parses, .nil⟩
  | cons e rest ih =>
    rw [List.flatMap_cons, List.append_assoc] at split
    obtain ⟨t, call, after, delivers, more⟩ := parse_frame behind fits message split cursor
    obtain ⟨calls, u, parses, all⟩ :=
      ih (before ++ e.frame defaultOrigin) (by rw [split]; simp only [List.append_assoc]) after
    exact ⟨call :: calls, u, more calls u parses, .cons delivers all⟩

theorem startFrom_cursor (left : SinkWalk) :
    Cursor rcvBufSize datagram .needPreamble 0 (.startFrom rcvBufSize datagram left) := by
  have start : Cursor rcvBufSize datagram .needPreamble 0 _ := start_cursor
  exact ⟨start.state, start.walk, start.walkBuf, start.remain, start.remainInBuf, start.iovN,
    start.headerTempWalk, start.tempBufferWalk⟩

/-- However many datagrams come, and whatever an earlier one has left behind, each
    complete frame leads to one call with its meta and its text, in order, and
    nothing else does. -/
theorem frames_received (behind : List Byte) (left : SinkWalk) (datagrams : List Datagram)
    (fit : ∀ d ∈ datagrams, d.Fits defaultOrigin rcvBufSize) :
    ∃ calls, (∀ calls', Serves rcvBufSize behind left
        (datagrams.map (Datagram.bytes defaultOrigin)) calls' ↔ calls' = calls) ∧
      List.Forall₂ SinkCall.Delivers calls
        (datagrams.flatMap fun d => d.entries.map (SinkEntry.body defaultOrigin)) := by
  have served : ∃ calls, Serves rcvBufSize behind left
      (datagrams.map (Datagram.bytes defaultOrigin)) calls ∧
      List.Forall₂ SinkCall.Delivers calls
        (datagrams.flatMap fun d => d.entries.map (SinkEntry.body defaultOrigin)) := by
    induction datagrams generalizing left with
    | nil => exact ⟨[], .none, .nil⟩
    | cons d rest ih =>
      have ok := fit d (List.mem_cons_self ..)
      obtain ⟨calls, u, parses, delivered⟩ := parse_frames behind []
        ok.received ok.message rfl ok.nextSize ok.proper (startFrom_cursor left)
      obtain ⟨others, served, delivered'⟩ :=
        ih u fun d member => fit d (List.mem_cons_of_mem _ member)
      refine ⟨calls ++ others, .datagram parses served, ?_⟩
      rw [List.flatMap_cons]
      exact List.rel_append delivered delivered'
  obtain ⟨calls, served, delivered⟩ := served
  refine ⟨calls, fun calls' => ⟨fun served' => serves_unique served' served, ?_⟩, delivered⟩
  rintro rfl
  exact served

def cutThenWhole : List Datagram :=
  let entry := fun text : List Byte => ({ m := noMetaData, padding := fun _ => 0, text := text } : SinkEntry)
  [⟨[entry [97]], entry [98], 20⟩, ⟨[entry [98], entry [98]], entry [99], 0⟩]

theorem frames_received_cut :
    ∃ calls, (∀ calls', Serves 131072 [7] (.start 131072 [])
        (cutThenWhole.map (Datagram.bytes 5)) calls' ↔ calls' = calls) ∧
      List.Forall₂ SinkCall.Delivers calls
        (cutThenWhole.flatMap fun d => d.entries.map (SinkEntry.body 5)) := by
  refine frames_received [7] (.start 131072 []) cutThenWhole fun d member => ?_
  simp only [cutThenWhole, List.mem_cons, List.not_mem_nil, or_false] at member
  rcases member with rfl | rfl
  · exact ⟨by decide, by decide +kernel, by decide +kernel, by decide +kernel⟩
  · exact ⟨by decide, by decide +kernel, by decide +kernel, by decide +kernel⟩

end GreaseLog
