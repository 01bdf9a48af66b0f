import GreaseLog.Sink

/- The three ways of a message to _log: a call of Log in the process, grease_log
   pointing to grease_logLocal, and grease_log pointing to grease_logToSink. -/
namespace GreaseLog

structure RoutingInputs where
  tag : TagId
  level : LevelMask
  origin : OriginId
  ignores : List TargetId
  text : List Byte
  deriving DecidableEq

def ExtraLogMeta.inputs (x : ExtraLogMeta) (s : List Byte) : RoutingInputs :=
  ⟨x.m.tag, x.m.level, x.m.origin, x.effectiveIgnores, s⟩

section
variable (T : FilterTable) (opts : Opts)

def reached (result : Except LogStatus (Option (ExtraLogMeta × List Byte))) : List RoutingInputs :=
  match result with
  | .ok (some r) => [r.1.inputs r.2]
  | _ => []

def inProcess (static : ExtraLogMeta) (args : LogArgs) : List RoutingInputs :=
  reached (.ok (logCall T opts static args).2)

def viaLocal (stack : Fin 11 → TargetId) (static : ExtraLogMeta) (args : LogArgs) :
    List RoutingInputs :=
  match (clientLog static args).2 with
  | some (f, s) => reached (log T opts stack f s)
  | none => []

def callReached : SinkCall → List RoutingInputs
  | .logFromRaw base len => reached (logFromRaw T opts base len)
  | .pingAck => []

def viaSink (defaultOrigin : OriginId) (padding : Fin 4 → Byte) (rcvBufSize fuel : Nat)
    (static : ExtraLogMeta) (args : LogArgs) : List RoutingInputs :=
  match (clientLog static args).2 with
  | some (f, s) =>
    let datagram := logToSink defaultOrigin padding f s
    (listen rcvBufSize datagram fuel (.start rcvBufSize datagram)).flatMap (callReached T opts)
  | none => []

end

/-! One datagram in one buffer. -/

theorem int_small {n : Nat} (small : n < 2 ^ 31) : (n : Int).bmod (2 ^ 32) = n := by
  refine Int.bmod_eq_of_le_mul_two ?_ ?_
  · push_cast
    omega
  · push_cast
    omega

theorem entryLen_small {len : UInt32} {n : Nat} (entry : len.toNat = n) (small : n < 2 ^ 31) :
    entryLen len = n := by
  unfold entryLen
  rw [entry]
  exact int_small small

theorem logToSink_length (defaultOrigin : OriginId) (padding : Fin 4 → Byte) (f : LogMeta)
    (s : List Byte) : (logToSink defaultOrigin padding f s).length = 88 + s.length := by
  simp only [logToSink, List.length_append, bytes32_length, LogMeta.bytes_length,
    GREASE_RAWBUF_MIN_SIZE]
  omega

theorem listen_turn {rcvBufSize : Nat} {datagram : List Byte} {s : SinkWalk}
    (more : s.walk < recvCnt rcvBufSize datagram) (inside : s.walkBuf < recvCnt rcvBufSize datagram)
    (fuel : Nat) :
    listen rcvBufSize datagram (fuel + 1) s =
      (s.turn ((rawBuffer rcvBufSize datagram s.iovN).drop s.walkBuf.toNat)).2 ++
        listen rcvBufSize datagram fuel
          (s.turn ((rawBuffer rcvBufSize datagram s.iovN).drop s.walkBuf.toNat)).1 := by
  have stays : s.nextBuffer rcvBufSize datagram = some s := if_neg (by omega)
  simp only [listen, more, if_true, stays]

theorem listen_done {rcvBufSize : Nat} {datagram : List Byte} {s : SinkWalk}
    (done : recvCnt rcvBufSize datagram ≤ s.walk) (fuel : Nat) :
    listen rcvBufSize datagram fuel s = [] := by
  cases fuel with
  | zero => rfl
  | succ fuel => exact if_neg (by omega)

theorem listen_entry (defaultOrigin : OriginId) (padding : Fin 4 → Byte) (f : LogMeta)
    {s : List Byte} (size : s.length ≤ GREASE_MAX_MESSAGE_SIZE) {rcvBufSize : Nat}
    (room : 88 + s.length ≤ rcvBufSize) (fuel : Nat) :
    let datagram := logToSink defaultOrigin padding f s
    ∃ behind, listen rcvBufSize datagram (fuel + 2) (.start rcvBufSize datagram) =
      [.logFromRaw (LogMeta.bytes { f with origin := defaultOrigin } padding ++ (s ++ behind))
        (80 + s.length : Nat)] := by
  intro datagram
  have length : datagram.length = 88 + s.length := logToSink_length defaultOrigin padding f s
  have cnt : recvCnt rcvBufSize datagram = 88 + s.length := by
    simp only [recvCnt, SINK_NBUFFERS, length]
    omega
  let behind : List Byte := List.replicate (rcvBufSize - datagram.length) 0
  have buffer : rawBuffer rcvBufSize datagram 0 = datagram ++ behind := by
    simp only [rawBuffer, Nat.zero_mul, List.drop_zero]
    rw [List.take_of_length_le (by omega)]
  obtain ⟨len, isLen⟩ : ∃ len, UInt32.ofNat (s.length + GREASE_RAWBUF_MIN_SIZE) = len := ⟨_, rfl⟩
  unfold GREASE_MAX_MESSAGE_SIZE at size
  have entry : len.toNat = 80 + s.length := by
    rw [← isLen, GREASE_RAWBUF_MIN_SIZE, UInt32.toNat_ofNat']
    omega
  let rest := LogMeta.bytes { f with origin := defaultOrigin } padding ++ (s ++ behind)
  have front : rawBuffer rcvBufSize datagram 0 =
      bytes32 SINK_LOG_PREAMBLE ++ (bytes32 len ++ rest) := by
    rw [buffer]
    simp only [datagram, logToSink, List.append_assoc, isLen, rest]
  have body : (rawBuffer rcvBufSize datagram 0).drop 8 = rest := by
    rw [front, drop_block (bytes32_length _) _ 4, drop_block (bytes32_length len) rest 0,
      List.drop_zero]
  -- the preamble, and then the entry
  let first : SinkWalk := .start rcvBufSize datagram
  let second : SinkWalk :=
    { state := .inLog, walk := 8, walkBuf := 8, remain := 80 + s.length,
      remainInBuf := 80 + s.length, entrySize := len }
  have preamble : first.turn ((rawBuffer rcvBufSize datagram first.iovN).drop first.walkBuf.toNat) =
      (second, []) := by
    have sizeWord : word32 (bytes32 SINK_LOG_PREAMBLE ++ (bytes32 len ++ rest)) 4 = len :=
      (word32_skip32 SINK_LOG_PREAMBLE (bytes32 len ++ rest) 0).trans (word32_front len rest)
    have ping : SINK_LOG_PREAMBLE ≠ SINK_LOG_PING := by decide
    have enough : (GREASE_CLIENT_PING_SIZE : Int) ≤ first.remain := by
      simp only [first, SinkWalk.start, cnt, GREASE_CLIENT_PING_SIZE]
      omega
    change walkPreamble first (rawBuffer rcvBufSize datagram 0) = _
    rw [front]
    simp only [walkPreamble, enough, if_true, word32_front, ping, if_false, sizeWord]
    simp only [first, SinkWalk.start, SinkWalk.step, cnt, second, GREASE_CLIENT_HEADER_SIZE,
      Prod.mk.injEq, and_true, SinkWalk.mk.injEq, true_and]
    omega
  have entryCall : (second.turn rest).2 = [.logFromRaw rest (80 + s.length : Nat)] ∧
      (second.turn rest).1.walk = 88 + s.length := by
    have whole : (len.toNat : Int) ≤ (80 + (s.length : Int)) % 2 ^ 32 := by
      rw [entry]
      omega
    have same : entryLen len = (80 + s.length : Nat) := entryLen_small entry (by omega)
    have inBuffer : (second.entrySize.toNat : Int) ≤ second.remainInBuf % 2 ^ 32 := whole
    have turned : walkLog second rest = ({ second with state := .needPreamble }.step len.toNat,
        [.logFromRaw rest (entryLen len)]) := by
      unfold walkLog
      rw [if_pos (show second.tempBufferWalk = 0 from rfl), if_pos inBuffer]
    change (walkLog second rest).2 = _ ∧ (walkLog second rest).1.walk = _
    rw [turned, same]
    refine ⟨rfl, ?_⟩
    simp only [SinkWalk.step, second, entry]
    omega
  refine ⟨behind, ?_⟩
  rw [listen_turn (s := first) (by simp [first, SinkWalk.start, cnt]; omega)
    (by simp [first, SinkWalk.start, cnt]; omega), preamble, List.nil_append,
    listen_turn (s := second) (by simp only [second, cnt]; omega)
      (by simp only [second, cnt]; omega)]
  have view : (rawBuffer rcvBufSize datagram second.iovN).drop second.walkBuf.toNat = rest := body
  rw [view, entryCall.1, listen_done (by rw [cnt, entryCall.2]; simp)]
  rfl

section
variable {T : FilterTable} {opts : Opts}

theorem logFromRaw_entry (T : FilterTable) (opts : Opts) (m : LogMeta) (padding : Fin 4 → Byte) {s : List Byte} (text : s ≠ [])
    (size : s.length ≤ GREASE_MAX_MESSAGE_SIZE) (behind : List Byte) :
    ∃ list, logFromRaw T opts (m.bytes padding ++ (s ++ behind)) (80 + s.length : Nat) =
      logP T opts ⟨m, list⟩ s := by
  have some := List.length_pos_of_ne_nil text
  unfold GREASE_MAX_MESSAGE_SIZE at size
  have accepted : (GREASE_RAWBUF_MIN_SIZE : Int) ≤ (80 + s.length : Nat) ∨
      ((80 + s.length : Nat) : Int) < 0 := by
    left
    simp only [GREASE_RAWBUF_MIN_SIZE]
    omega
  have rest : (((80 + s.length : Nat) : Int) - GREASE_RAWBUF_MIN_SIZE).bmod (2 ^ 32) = s.length := by
    have exact : ((80 + s.length : Nat) : Int) - GREASE_RAWBUF_MIN_SIZE = s.length := by
      simp only [GREASE_RAWBUF_MIN_SIZE]
      omega
    rw [exact]
    exact int_small (by omega)
  have positive : (0 : Int) < s.length := by omega
  have body : ((m.bytes padding ++ (s ++ behind)).drop GREASE_RAWBUF_MIN_SIZE).take s.length = s := by
    rw [List.drop_left' (m.bytes_length padding), List.take_left]
  refine ⟨(ExtraLogMeta.ofBytes (m.bytes padding ++ (s ++ behind))).ignoreList, ?_⟩
  unfold logFromRaw
  simp only [rest, if_pos accepted, if_pos positive, Int.toNat_natCast, body]
  exact congrArg (fun m => logP T opts ⟨m, _⟩ s) (LogMeta.ofBytes_bytes m padding _)

/-- Without extras the container of the meta does not show. -/
theorem reached_plain (m : LogMeta) (list : Fin 11 → TargetId) {s : List Byte} (plain : m.extras = 0)
    (size : s.length ≤ GREASE_MAX_MESSAGE_SIZE) :
    reached (logP T opts ⟨m, list⟩ s) =
      if (sift T opts m).1 then [⟨m.tag, m.level, m.origin, [], s⟩] else [] := by
  obtain ⟨tag, level, origin, -, extras⟩ := sift_keeps T opts m
  have fits : ¬ s.length > GREASE_MAX_MESSAGE_SIZE := Nat.not_lt.mpr size
  simp only [logP, fits, if_false]
  split
  · simp [reached, ExtraLogMeta.inputs, ExtraLogMeta.effectiveIgnores, LogMeta.hasIgnores, tag, level,
      origin, extras, plain]
  · rfl

theorem inProcess_plain (static : ExtraLogMeta) {args : LogArgs} {s : List Byte} {level : LevelMask}
    (plain : args.extras = none) (message : args.message = some s) (leveled : args.level = some level) :
    inProcess T opts static args =
      if (sift T opts (args.fields level)).1 then
        [⟨args.tag.getD 0, level, args.origin.getD 0, [], s⟩]
      else [] := by
  obtain ⟨tag, levels, origin, -, extras⟩ := sift_keeps T opts (args.fields level)
  unfold inProcess logCall
  simp only [message, leveled, plain]
  split
  · simp only [reached, ExtraLogMeta.inputs, ExtraLogMeta.effectiveIgnores, LogMeta.hasIgnores, tag,
      levels, origin, extras]
    rfl
  · rfl

theorem clientLog_plain (static : ExtraLogMeta) {args : LogArgs} {s : List Byte} {level : LevelMask}
    (plain : args.extras = none) (message : args.message = some s) (leveled : args.level = some level) :
    (clientLog static args).2 = some (args.fields level, s) := by
  simp [clientLog, message, leveled, plain]

/-- A message without extras reaches _log through grease_logLocal as it would in the
    process, and through the sink as it would with the default origin of the
    client. The receive buffer is as large as Linux makes it, twice what is
    asked for. -/
theorem transport_transparent (T : FilterTable) (opts : Opts) (args : LogArgs) {s : List Byte}
    (plain : args.extras = none) (message : args.message = some s) (text : s ≠ [])
    (size : s.length ≤ GREASE_MAX_MESSAGE_SIZE) (static static' : ExtraLogMeta)
    (stack : Fin 11 → TargetId) (defaultOrigin : OriginId) (padding : Fin 4 → Byte)
    (rcvBufSize : Nat) (doubled : 2 * DESIRED_SOCKET_SIZE ≤ rcvBufSize) (fuel : Nat) :
    viaLocal T opts stack static args = inProcess T opts static' args ∧
      viaSink T opts defaultOrigin padding rcvBufSize (fuel + 2) static args =
        inProcess T opts static' { args with origin := some defaultOrigin } := by
  rcases Option.eq_none_or_eq_some args.level with unleveled | ⟨level, leveled⟩
  · simp [viaLocal, viaSink, clientLog, inProcess, logCall, message, unleveled, reached]
  · have sent := clientLog_plain static plain message leveled
    constructor
    · simp only [viaLocal, sent, log]
      rw [reached_plain _ _ rfl size, inProcess_plain static' plain message leveled]
      rfl
    · let stamped : LogArgs := { args with origin := some defaultOrigin }
      have plain' : stamped.extras = none := plain
      have room : 88 + s.length ≤ rcvBufSize := by
        unfold GREASE_MAX_MESSAGE_SIZE at size
        unfold DESIRED_SOCKET_SIZE at doubled
        omega
      obtain ⟨behind, listened⟩ :=
        listen_entry defaultOrigin padding (args.fields level) size room fuel
      obtain ⟨list, raw⟩ :=
        logFromRaw_entry T opts (stamped.fields level) padding text size behind
      simp only [viaSink, sent, listened, List.flatMap_singleton, callReached]
      refine (congrArg reached raw).trans ?_
      rw [reached_plain _ _ rfl size]
      exact (inProcess_plain static' plain' message leveled).symm

end

def taggedCall (extras : Option JsIgnores) : LogArgs :=
  { message := some [97], level := some 1, tag := some 5, origin := some 7, extras := extras }

/-- As sent by the process 1 to a server whose receive buffer is twice 65536. -/
def sinkInputs (extras : Option JsIgnores) : List RoutingInputs :=
  viaSink taggedTable {} 0x15000001 (fun _ => 0) 131072 2 initialStatic (taggedCall extras)

theorem transport_transparent_line :
    viaLocal taggedTable {} (fun _ => 3) initialStatic (taggedCall none) = [⟨5, 1, 7, [], [97]⟩] ∧
      sinkInputs none = [⟨5, 1, 0x15000001, [], [97]⟩] := by
  obtain ⟨locally, sunk⟩ := transport_transparent taggedTable {} (taggedCall none) rfl rfl
    (by decide) (by decide) initialStatic initialStatic (fun _ => 3) 0x15000001 (fun _ => 0) 131072
    (by decide) 0
  exact ⟨locally.trans (by decide), sunk.trans (by decide)⟩

/-- The sink changes the origin, and for the ignore list the server reads the text;
    with grease_logLocal it reads the stack. -/
theorem sink_changes_inputs :
    inProcess taggedTable {} initialStatic (taggedCall none) = [⟨5, 1, 7, [], [97]⟩] ∧
      sinkInputs none = [⟨5, 1, 0x15000001, [], [97]⟩] ∧
      inProcess taggedTable {} initialStatic (taggedCall (some (.array [7]))) =
        [⟨5, 1, 7, [7], [97]⟩] ∧
      sinkInputs (some (.array [7])) = [⟨5, 1, 0x15000001, [97], [97]⟩] ∧
      viaLocal taggedTable {} (fun _ => 0) initialStatic (taggedCall (some (.array [7]))) =
        [⟨5, 1, 7, [], [97]⟩] :=
  ⟨by decide, by decide +kernel, by decide, by decide +kernel, by decide⟩

end GreaseLog
