import GreaseLog.Lib.LittleEndian
import GreaseLog.LogCall

/- The way of a message through a UnixDgramSink: the datagram that grease_logToSink
   sends, the loop of listener_work over what recvmsg left in its buffers, and
   logFromRaw and logP on the server. Words are little endian and pointers have
   8 bytes. -/
namespace GreaseLog

def SINK_LOG_PREAMBLE : UInt32 := 0xF00DFEED
def SINK_LOG_PING : UInt32 := 0xF00DF00D
def GREASE_CLIENT_PING_SIZE : Nat := 4
def GREASE_CLIENT_HEADER_SIZE : Nat := 8
def SINK_NBUFFERS : Nat := 10
def DESIRED_SOCKET_SIZE : Nat := 65536
def GREASE_RAWBUF_MIN_SIZE : Nat := 80

def bytes32 (v : UInt32) : List Byte := LittleEndian.encode 4 v.toNat

def bytes64 (v : UInt64) : List Byte := LittleEndian.encode 8 v.toNat

def word32 (base : List Byte) (offset : Nat) : UInt32 :=
  .ofNat (LittleEndian.decode ((base.drop offset).take 4))

def word64 (base : List Byte) (offset : Nat) : UInt64 :=
  .ofNat (LittleEndian.decode ((base.drop offset).take 8))

/-- A logMeta in memory, with the padding before its 8 byte words. -/
def LogMeta.bytes (m : LogMeta) (padding : Fin 4 → Byte) : List Byte :=
  bytes32 m.tag ++ (bytes32 m.level ++ (bytes32 m.origin ++ (bytes32 m.target ++
    (bytes32 m.extras ++ (List.ofFn padding ++ (bytes64 (m.cachedHash 0) ++
    (bytes64 (m.cachedHash 1) ++ (bytes64 (m.cachedHash 2) ++ (bytes64 (m.cachedLists 0) ++
    (bytes64 (m.cachedLists 1) ++ (bytes64 (m.cachedLists 2) ++ bytes64 (m.cachedLists 3))))))))))))

def LogMeta.ofBytes (base : List Byte) : LogMeta where
  tag := word32 base 0
  level := word32 base 4
  origin := word32 base 8
  target := word32 base 12
  extras := word32 base 16
  cachedHash := ![word64 base 24, word64 base 32, word64 base 40]
  cachedLists := ![word64 base 48, word64 base 56, word64 base 64, word64 base 72]

/-- META_WITH_EXTRAS of a meta in memory: the list is what lies behind it. -/
def ExtraLogMeta.ofBytes (base : List Byte) : ExtraLogMeta where
  m := .ofBytes base
  ignoreList := fun i => word32 base (GREASE_RAWBUF_MIN_SIZE + 4 * i)

@[simp] theorem bytes32_length (v : UInt32) : (bytes32 v).length = 4 :=
  LittleEndian.encode_length 4 _

@[simp] theorem bytes64_length (v : UInt64) : (bytes64 v).length = 8 :=
  LittleEndian.encode_length 8 _

theorem word32_front (v : UInt32) (rest : List Byte) : word32 (bytes32 v ++ rest) 0 = v := by
  have fits : v.toNat < 256 ^ 4 := v.toNat_lt
  rw [word32, List.drop_zero, bytes32, LittleEndian.decode_front fits, UInt32.ofNat_toNat]

theorem word64_front (v : UInt64) (rest : List Byte) : word64 (bytes64 v ++ rest) 0 = v := by
  have fits : v.toNat < 256 ^ 8 := v.toNat_lt
  rw [word64, List.drop_zero, bytes64, LittleEndian.decode_front fits, UInt64.ofNat_toNat]

/-! A word behind others. -/

theorem drop_block {block : List Byte} {width : Nat} (length : block.length = width)
    (rest : List Byte) (n : Nat) : (block ++ rest).drop (n + width) = rest.drop n := by
  rw [← length, Nat.add_comm, ← List.drop_drop, List.drop_left]

theorem word32_skip32 (v : UInt32) (rest : List Byte) (n : Nat) :
    word32 (bytes32 v ++ rest) (n + 4) = word32 rest n := by
  rw [word32, drop_block (bytes32_length v), word32]

theorem word64_skip32 (v : UInt32) (rest : List Byte) (n : Nat) :
    word64 (bytes32 v ++ rest) (n + 4) = word64 rest n := by
  rw [word64, drop_block (bytes32_length v), word64]

theorem word64_skipPadding (padding : Fin 4 → Byte) (rest : List Byte) (n : Nat) :
    word64 (List.ofFn padding ++ rest) (n + 4) = word64 rest n := by
  rw [word64, drop_block List.length_ofFn, word64]

theorem word64_skip64 (v : UInt64) (rest : List Byte) (n : Nat) :
    word64 (bytes64 v ++ rest) (n + 8) = word64 rest n := by
  rw [word64, drop_block (bytes64_length v), word64]

theorem LogMeta.bytes_length (m : LogMeta) (padding : Fin 4 → Byte) :
    (m.bytes padding).length = GREASE_RAWBUF_MIN_SIZE := by
  simp [LogMeta.bytes, GREASE_RAWBUF_MIN_SIZE]

theorem LogMeta.ofBytes_bytes (m : LogMeta) (padding : Fin 4 → Byte) (rest : List Byte) :
    LogMeta.ofBytes (m.bytes padding ++ rest) = m := by
  have hashes : ![m.cachedHash 0, m.cachedHash 1, m.cachedHash 2] = m.cachedHash := by
    funext i
    fin_cases i <;> rfl
  have lists : ![m.cachedLists 0, m.cachedLists 1, m.cachedLists 2, m.cachedLists 3] =
      m.cachedLists := by
    funext i
    fin_cases i <;> rfl
  simp only [LogMeta.ofBytes, LogMeta.bytes, List.append_assoc, word32_skip32, word64_skip32,
    word64_skipPadding, word64_skip64, word32_front, word64_front, hashes, lists]

/-! The server. -/

inductive LogStatus where
  | overflow
  | noBuffer
  deriving DecidableEq

section
variable (T : FilterTable) (opts : Opts)

def logP (f : ExtraLogMeta) (s : List Byte) : Except LogStatus (Option (ExtraLogMeta × List Byte)) :=
  if s.length > GREASE_MAX_MESSAGE_SIZE then .error .overflow
  else
    let r := sift T opts f.m
    .ok (if r.1 then some ({ f with m := r.2 }, s) else none)

/-- log: a copy of the meta alone, next to whatever else is on the stack. -/
def log (stack : Fin 11 → TargetId) (f : LogMeta) (s : List Byte) :
    Except LogStatus (Option (ExtraLogMeta × List Byte)) :=
  logP T opts ⟨f, stack⟩ s

/-- The comparison of the int with sizeof is unsigned, the difference an int. -/
def logFromRaw (base : List Byte) (len : Int) :
    Except LogStatus (Option (ExtraLogMeta × List Byte)) :=
  if (GREASE_RAWBUF_MIN_SIZE : Int) ≤ len ∨ len < 0 then
    let l := (len - GREASE_RAWBUF_MIN_SIZE).bmod (2 ^ 32)
    if 0 < l then logP T opts (.ofBytes base) ((base.drop GREASE_RAWBUF_MIN_SIZE).take l.toNat)
    else .ok none
  else .error .noBuffer

end

/-! listener_work, for one datagram. -/

inductive SinkState where
  | needPreamble
  | inPreamble
  | inLog
  deriving DecidableEq

/-- What the loop does besides moving on; base is the memory from the pointer on. -/
inductive SinkCall where
  | pingAck
  | logFromRaw (base : List Byte) (len : Int)
  deriving DecidableEq

structure SinkWalk where
  state : SinkState := .needPreamble
  walk : Int := 0
  walkBuf : Int := 0
  remain : Int
  remainInBuf : Int
  iovN : Nat := 0
  headerTemp : List Byte := []
  headerTempWalk : Nat := 0
  tempBufferEntry : List Byte := []
  tempBufferWalk : Int := 0
  entrySize : UInt32 := 0

section
variable (rcvBufSize : Nat) (datagram : List Byte)

/-- What recvmsg returns: a longer datagram is cut. -/
def recvCnt : Nat := min datagram.length (SINK_NBUFFERS * rcvBufSize)

/-- raw_buffer[n], cleared before recvmsg fills it. -/
def rawBuffer (n : Nat) : List Byte :=
  let received := (datagram.drop (n * rcvBufSize)).take rcvBufSize
  received ++ List.replicate (rcvBufSize - received.length) 0

def SinkWalk.start : SinkWalk :=
  let cnt := recvCnt rcvBufSize datagram
  { remain := cnt, remainInBuf := min cnt rcvBufSize }

def SinkWalk.step (s : SinkWalk) (n : Int) : SinkWalk :=
  { s with
    walk := s.walk + n
    walkBuf := s.walkBuf + n
    remain := s.remain - n
    remainInBuf := s.remainInBuf - n }

/-- SD_WALK(remain), where the last statement of the macro finds 0 in remain. -/
def SinkWalk.stepRemain (s : SinkWalk) : SinkWalk :=
  { s with walk := s.walk + s.remain, walkBuf := s.walkBuf + s.remain, remain := 0 }

def overwrite (memory : List Byte) (offset : Nat) (bytes : List Byte) : List Byte :=
  memory.take offset ++ bytes ++ memory.drop (offset + bytes.length)

/-- entry_size as the int parameter of logFromRaw. -/
def entryLen (entrySize : UInt32) : Int := (entrySize.toNat : Int).bmod (2 ^ 32)

def walkPreamble (s : SinkWalk) (view : List Byte) : SinkWalk × List SinkCall :=
  if (GREASE_CLIENT_PING_SIZE : Int) ≤ s.remain then
    if word32 view 0 = SINK_LOG_PING then (s.step GREASE_CLIENT_HEADER_SIZE, [.pingAck])
    else if word32 view 0 = SINK_LOG_PREAMBLE then
      ({ s with state := .inLog, entrySize := word32 view 4 }.step GREASE_CLIENT_HEADER_SIZE, [])
    else ({ s with state := .needPreamble }.step GREASE_CLIENT_HEADER_SIZE, [])
  else
    ({ s with
      state := .inPreamble
      headerTemp := overwrite s.headerTemp s.headerTempWalk (view.take s.remain.toNat) }.stepRemain, [])

/-- headerTempWalk is never moved on. -/
def walkInPreamble (s : SinkWalk) (view : List Byte) : SinkWalk × List SinkCall :=
  let nibble := GREASE_CLIENT_HEADER_SIZE - s.headerTempWalk
  let s := { s with headerTemp := overwrite s.headerTemp s.headerTempWalk (view.take nibble) }.step nibble
  if GREASE_CLIENT_HEADER_SIZE ≤ s.headerTempWalk then
    if word32 s.headerTemp 0 = SINK_LOG_PREAMBLE then
      ({ s with entrySize := word32 s.headerTemp 4, headerTempWalk := 0, state := .inLog }, [])
    else ({ s with state := .needPreamble }, [])
  else (s, [])

/-- The comparison with entry_size is unsigned. -/
def walkLog (s : SinkWalk) (view : List Byte) : SinkWalk × List SinkCall :=
  if s.tempBufferWalk = 0 then
    if (s.entrySize.toNat : Int) ≤ s.remainInBuf % 2 ^ 32 then
      ({ s with state := .needPreamble }.step s.entrySize.toNat,
        [.logFromRaw view (entryLen s.entrySize)])
    else
      ({ s with
        tempBufferEntry := overwrite s.tempBufferEntry 0 (view.take s.remainInBuf.toNat)
        tempBufferWalk := s.remainInBuf }.step s.remainInBuf, [])
  else
    let need := s.entrySize.toNat - s.tempBufferWalk
    let temp := overwrite s.tempBufferEntry s.tempBufferWalk.toNat (view.take need.toNat)
    if need ≤ s.remainInBuf then
      ({ s with state := .needPreamble, tempBufferEntry := temp, tempBufferWalk := 0 }.step need,
        [.logFromRaw temp (entryLen s.entrySize)])
    else
      ({ s with tempBufferEntry := temp, tempBufferWalk := s.tempBufferWalk + need }.step need, [])

/-- The next buffer when this one is used up, which is measured by recv_cnt. None
    is the break after the last one. -/
def SinkWalk.nextBuffer (s : SinkWalk) : Option SinkWalk :=
  if (recvCnt rcvBufSize datagram : Int) ≤ s.walkBuf then
    if SINK_NBUFFERS ≤ s.iovN + 1 then none
    else some { s with walkBuf := 0, iovN := s.iovN + 1, remainInBuf := min s.remain rcvBufSize }
  else some s

/-- switch(state), where view is the memory from SD_WAL_BUF_P on. -/
def SinkWalk.turn (s : SinkWalk) (view : List Byte) : SinkWalk × List SinkCall :=
  match s.state with
  | .needPreamble => walkPreamble s view
  | .inPreamble => walkInPreamble s view
  | .inLog => walkLog s view

def listen : Nat → SinkWalk → List SinkCall
  | 0, _ => []
  | fuel + 1, s =>
    if s.walk < recvCnt rcvBufSize datagram then
      match s.nextBuffer rcvBufSize datagram with
      | none => []
      | some s =>
        let done := s.turn ((rawBuffer rcvBufSize datagram s.iovN).drop s.walkBuf.toNat)
        done.2 ++ listen fuel done.1
    else []

end

/-! The client. -/

/-- GreaseLoggerClient::Log: the static meta after the call, and the meta and text
    given to grease_log. -/
def clientLog (static : ExtraLogMeta) (args : LogArgs) :
    ExtraLogMeta × Option (LogMeta × List Byte) :=
  match args.message, args.level with
  | some text, some level =>
    let static := { static with m := args.fields level }
    match args.extras with
    | some ignores =>
      let static : ExtraLogMeta :=
        { m := { static.m with extras := 1 }, ignoreList := ignores.store static.ignoreList }
      (static, some (static.m, text))
    | none => (static, some (static.m, text))
  | _, _ => ({ static with m := noMetaData }, none)

/-- The datagram of grease_logToSink, which stamps the default origin of the client
    into the meta. -/
def logToSink (defaultOrigin : OriginId) (padding : Fin 4 → Byte) (f : LogMeta) (s : List Byte) :
    List Byte :=
  let len := UInt32.ofNat (s.length + GREASE_RAWBUF_MIN_SIZE)
  bytes32 SINK_LOG_PREAMBLE ++ (bytes32 len ++
    (LogMeta.bytes { f with origin := defaultOrigin } padding ++ s))

end GreaseLog
