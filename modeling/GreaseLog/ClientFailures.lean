import Mathlib.Data.List.Induction

/- GreaseLoggerClient (client_logger.cc) and grease_logToSink behind it
   (grease_client.c): two counters of failed sends, and the callback that is told of
   them. The calls come one after the other: a callback does not log itself. Log clears
   sinkFailureNeedsCall only after the call, so that one that does is called again. -/
namespace GreaseLog

def SINK_MAX_ERRORS : Nat := 10

inductive ConnectMethod where
  | noConnection
  | viaSink
  deriving DecidableEq

inductive GreaseLogPtr where
  | null
  | sink
  deriving DecidableEq

structure GreaseLoggerClient where
  sinkErrorCount : Nat := 0
  greaseConnectMethod : ConnectMethod := .noConnection
  sinkFailureNeedsCall : Bool := false
  maxSinkErrors : Nat := SINK_MAX_ERRORS
  onSinkFailureCB : Bool := false
  greaseLog : GreaseLogPtr := .null
  errCnt : Nat := 0
  deriving DecidableEq

/-- proper says that Log is given a string and a number, sent that sendmsg succeeds
    if it is called. -/
inductive ClientAction where
  | log (proper sent : Bool)
  | setGlobalOpts (isFunction : Bool)
  deriving DecidableEq

structure ClientStep where
  client : GreaseLoggerClient
  sends : Nat := 0
  callbacks : Nat := 0

namespace GreaseLoggerClient

def getConnectivityMethod (c : GreaseLoggerClient) : ConnectMethod :=
  match c.greaseLog with
  | .sink => .viaSink
  | .null => .noConnection

/-- grease_initLogger, which connects or does not, and the rest of Start. -/
def start (c : GreaseLoggerClient) (connects : Bool) : GreaseLoggerClient :=
  let c := { c with errCnt := 0, greaseLog := if connects then .sink else .null }
  let c := if connects then c else { c with sinkFailureNeedsCall := true }
  { c with greaseConnectMethod := c.getConnectivityMethod }

/-- grease_logToSink, and whether it returns GREASE_OK. -/
def logToSink (c : GreaseLoggerClient) (sent : Bool) : GreaseLoggerClient × Bool :=
  if sent then (c, true)
  else
    let c := { c with errCnt := c.errCnt + 1 }
    if c.errCnt > SINK_MAX_ERRORS then ({ c with greaseLog := .null }, false) else (c, false)

def sinkFailure (c : GreaseLoggerClient) : GreaseLoggerClient × Nat :=
  let pending := c.sinkFailureNeedsCall && c.onSinkFailureCB
  let c := if pending then { c with sinkFailureNeedsCall := false } else c
  let calls := if pending then 1 else 0
  if c.greaseConnectMethod = .viaSink then
    let c := { c with sinkErrorCount := c.sinkErrorCount + 1 }
    if c.sinkErrorCount > c.maxSinkErrors then
      if c.onSinkFailureCB then ({ c with greaseConnectMethod := .noConnection }, calls + 1)
      else ({ c with sinkFailureNeedsCall := true, greaseConnectMethod := .noConnection }, calls)
    else (c, calls)
  else (c, calls)

def act (c : GreaseLoggerClient) : ClientAction → ClientStep
  | .setGlobalOpts isFunction =>
    { client := if isFunction then { c with onSinkFailureCB := true } else c }
  | .log false _ => { client := c }
  | .log true sent =>
    match c.greaseLog with
    | .null =>
      let done := c.sinkFailure
      { client := done.1, callbacks := done.2 }
    | .sink =>
      let r := c.logToSink sent
      if r.2 then { client := r.1, sends := 1 }
      else
        let done := r.1.sinkFailure
        { client := done.1, sends := 1, callbacks := done.2 }

end GreaseLoggerClient

/-! What should come of an action, by the state before it. -/

namespace ClientAction

/-- A Log that has something to send, and grease_log to send it with. -/
def sends (c : GreaseLoggerClient) : ClientAction → Bool
  | .log true _ => c.greaseLog = .sink
  | _ => false

def sendFails (c : GreaseLoggerClient) : ClientAction → Bool
  | .log true false => c.greaseLog = .sink
  | _ => false

/-- A Log that finds grease_log NULL, or whose send fails. -/
def fails (c : GreaseLoggerClient) : ClientAction → Bool
  | .log true sent => c.greaseLog = .null || !sent
  | _ => false

end ClientAction

structure ClientRun where
  client : GreaseLoggerClient
  startFailed : Bool
  sends : Nat := 0
  failedSends : Nat := 0
  callbacks : Nat := 0
  /-- A Log has come at which the callback is due. -/
  wasDue : Bool := false

namespace ClientRun

/-- A callback may have been registered before Start. -/
def start (registered connects : Bool) : ClientRun where
  client := ({ onSinkFailureCB := registered } : GreaseLoggerClient).start connects
  startFailed := !connects

/-- The action is a failing Log with a callback registered, and Start had failed or
    more than SINK_MAX_ERRORS sends have. -/
def due (r : ClientRun) (a : ClientAction) : Bool :=
  a.fails r.client && r.client.onSinkFailureCB &&
    (r.startFailed || decide (SINK_MAX_ERRORS < r.failedSends + (a.sendFails r.client).toNat))

def record (r : ClientRun) (a : ClientAction) : ClientRun where
  client := (r.client.act a).client
  startFailed := r.startFailed
  sends := r.sends + (r.client.act a).sends
  failedSends := r.failedSends + (a.sendFails r.client).toNat
  callbacks := r.callbacks + (r.client.act a).callbacks
  wasDue := r.wasDue || r.due a

/-- Both counters have seen every failed send, and there were not too many. -/
structure Connected (r : ClientRun) : Prop where
  greaseLog : r.client.greaseLog = .sink
  method : r.client.greaseConnectMethod = .viaSink
  limit : r.client.maxSinkErrors = SINK_MAX_ERRORS
  errCnt : r.client.errCnt = r.failedSends
  sinkErrorCount : r.client.sinkErrorCount = r.failedSends
  few : r.failedSends ≤ SINK_MAX_ERRORS
  started : r.startFailed = false
  needsCall : r.client.sinkFailureNeedsCall = false
  wasDue : r.wasDue = false
  callbacks : r.callbacks = 0

/-- The callback is pending until it has been due. -/
structure Ended (r : ClientRun) : Prop where
  greaseLog : r.client.greaseLog = .null
  method : r.client.greaseConnectMethod = .noConnection
  past : r.startFailed = true ∨ SINK_MAX_ERRORS < r.failedSends
  needsCall : r.client.sinkFailureNeedsCall = !r.wasDue
  callbacks : r.callbacks = r.wasDue.toNat

variable {r : ClientRun}

structure Follows (r : ClientRun) (a : ClientAction) : Prop where
  callbacks : (r.client.act a).callbacks = (r.due a && !r.wasDue).toNat
  disconnects : (r.client.greaseConnectMethod ≠ .noConnection ∧
      (r.client.act a).client.greaseConnectMethod = .noConnection) ↔
    (r.client.greaseLog ≠ .null ∧ (r.client.act a).client.greaseLog = .null)
  sends : (r.client.act a).sends = (a.sends r.client).toNat
  silent : r.client.greaseLog = .null →
    (r.client.act a).sends = 0 ∧ (r.client.act a).client.greaseLog = .null

theorem start_state (registered connects : Bool) :
    (start registered connects).Connected ∨ (start registered connects).Ended := by
  cases connects with
  | true => exact Or.inl ⟨rfl, rfl, rfl, rfl, rfl, Nat.zero_le _, rfl, rfl, rfl, rfl⟩
  | false => exact Or.inr ⟨rfl, rfl, Or.inl rfl, rfl, rfl⟩

theorem sinkFailure_ended {c : GreaseLoggerClient} (method : c.greaseConnectMethod = .noConnection) :
    c.sinkFailure =
      ({ c with sinkFailureNeedsCall := c.sinkFailureNeedsCall && !c.onSinkFailureCB },
        (c.sinkFailureNeedsCall && c.onSinkFailureCB).toNat) := by
  obtain ⟨count, connectMethod, needsCall, most, registered, log, err⟩ := c
  subst method
  cases needsCall <;> cases registered <;> rfl

theorem sinkFailure_counted {c : GreaseLoggerClient} (method : c.greaseConnectMethod = .viaSink)
    (needsCall : c.sinkFailureNeedsCall = false) (few : c.sinkErrorCount + 1 ≤ c.maxSinkErrors) :
    c.sinkFailure = ({ c with sinkErrorCount := c.sinkErrorCount + 1 }, 0) := by
  simp [GreaseLoggerClient.sinkFailure, method, needsCall, Nat.not_lt.mpr few]

theorem sinkFailure_last {c : GreaseLoggerClient} (method : c.greaseConnectMethod = .viaSink)
    (needsCall : c.sinkFailureNeedsCall = false) (many : c.maxSinkErrors < c.sinkErrorCount + 1) :
    c.sinkFailure =
      ({ c with
          sinkErrorCount := c.sinkErrorCount + 1
          greaseConnectMethod := .noConnection
          sinkFailureNeedsCall := !c.onSinkFailureCB }, c.onSinkFailureCB.toNat) := by
  cases registered : c.onSinkFailureCB <;>
    simp [GreaseLoggerClient.sinkFailure, method, needsCall, many, registered]

theorem idle_step {a : ClientAction} (idle : ∀ sent, a ≠ .log true sent) :
    ∃ registered, r.client.act a = { client := { r.client with onSinkFailureCB := registered } } := by
  cases a with
  | setGlobalOpts isFunction =>
    cases isFunction with
    | true => exact ⟨true, rfl⟩
    | false => exact ⟨r.client.onSinkFailureCB, rfl⟩
  | log proper sent =>
    cases proper with
    | true => exact absurd rfl (idle sent)
    | false => exact ⟨r.client.onSinkFailureCB, rfl⟩

theorem idle_kinds {c : GreaseLoggerClient} {a : ClientAction} (idle : ∀ sent, a ≠ .log true sent) :
    a.sends c = false ∧ a.sendFails c = false ∧ a.fails c = false := by
  cases a with
  | setGlobalOpts isFunction => exact ⟨rfl, rfl, rfl⟩
  | log proper sent =>
    cases proper with
    | true => exact absurd rfl (idle sent)
    | false => exact ⟨rfl, rfl, rfl⟩

/-- With grease_log NULL every proper Log fails, and sends nothing. -/
theorem null_kinds {c : GreaseLoggerClient} (null : c.greaseLog = .null) (sent : Bool) :
    (ClientAction.log true sent).sends c = false ∧ (ClientAction.log true sent).sendFails c = false ∧
      (ClientAction.log true sent).fails c = true := by
  cases sent <;> simp [ClientAction.sends, ClientAction.sendFails, ClientAction.fails, null]

theorem sink_kinds {c : GreaseLoggerClient} (sink : c.greaseLog = .sink) (sent : Bool) :
    (ClientAction.log true sent).sends c = true ∧ (ClientAction.log true sent).sendFails c = !sent ∧
      (ClientAction.log true sent).fails c = !sent := by
  cases sent <;> simp [ClientAction.sends, ClientAction.sendFails, ClientAction.fails, sink]

theorem ended_step (ended : r.Ended) (a : ClientAction) : r.Follows a ∧ (r.record a).Ended := by
  have past : (r.startFailed || decide (SINK_MAX_ERRORS < r.failedSends)) = true := by
    simpa using ended.past
  by_cases logs : ∃ sent, a = .log true sent
  · obtain ⟨sent, rfl⟩ := logs
    have stepped : r.client.act (.log true sent) =
        { client := { r.client with sinkFailureNeedsCall := !r.wasDue && !r.client.onSinkFailureCB }
          callbacks := (!r.wasDue && r.client.onSinkFailureCB).toNat } := by
      simp only [GreaseLoggerClient.act, ended.greaseLog, sinkFailure_ended ended.method,
        ended.needsCall]
    obtain ⟨sends, sendFails, fails⟩ := null_kinds ended.greaseLog sent
    have due : r.due (.log true sent) = r.client.onSinkFailureCB := by
      simp [ClientRun.due, sendFails, fails, past]
    constructor
    · constructor
      · rw [stepped, due, Bool.and_comm r.client.onSinkFailureCB]
      · simp [stepped, ended.method, ended.greaseLog]
      · rw [stepped, sends]
        rfl
      · intro _
        rw [stepped]
        exact ⟨rfl, ended.greaseLog⟩
    · constructor
      · simp [record, stepped, ended.greaseLog]
      · simp [record, stepped, ended.method]
      · simpa [record, sendFails] using ended.past
      · simp [record, stepped, due]
      · simp only [record, stepped, due, ended.callbacks]
        cases r.wasDue <;> cases r.client.onSinkFailureCB <;> rfl
  · obtain ⟨registered, stepped⟩ := idle_step (r := r) (a := a) fun sent eq => logs ⟨sent, eq⟩
    obtain ⟨sends, sendFails, fails⟩ :=
      idle_kinds (c := r.client) (a := a) fun sent eq => logs ⟨sent, eq⟩
    have due : r.due a = false := by simp [ClientRun.due, fails]
    constructor
    · constructor
      · simp [stepped, due]
      · simp [stepped, ended.method, ended.greaseLog]
      · rw [stepped, sends]
        rfl
      · simp [stepped, ended.greaseLog]
    · constructor
      · simp [record, stepped, ended.greaseLog]
      · simp [record, stepped, ended.method]
      · simpa [record, sendFails] using ended.past
      · simp [record, stepped, due, ended.needsCall]
      · simp [record, stepped, due, ended.callbacks]

theorem act_failed {c : GreaseLoggerClient} (greaseLog : c.greaseLog = .sink) :
    c.act (.log true false) =
      { client := (c.logToSink false).1.sinkFailure.1
        sends := 1
        callbacks := (c.logToSink false).1.sinkFailure.2 } := by
  have fails : (c.logToSink false).2 = false := by
    simp only [GreaseLoggerClient.logToSink, Bool.false_eq_true, if_false]
    split <;> rfl
  simp [GreaseLoggerClient.act, greaseLog, fails]

theorem act_counted {c : GreaseLoggerClient} (greaseLog : c.greaseLog = .sink)
    (method : c.greaseConnectMethod = .viaSink) (needsCall : c.sinkFailureNeedsCall = false)
    (sends : c.errCnt < SINK_MAX_ERRORS) (few : c.sinkErrorCount < c.maxSinkErrors) :
    c.act (.log true false) =
      { client := { c with errCnt := c.errCnt + 1, sinkErrorCount := c.sinkErrorCount + 1 }
        sends := 1 } := by
  have logged : c.logToSink false = ({ c with errCnt := c.errCnt + 1 }, false) := by
    simp [GreaseLoggerClient.logToSink, Nat.not_lt.mpr sends]
  have counted := sinkFailure_counted (c := { c with errCnt := c.errCnt + 1 }) method needsCall few
  rw [act_failed greaseLog, logged, counted]

theorem act_last {c : GreaseLoggerClient} (greaseLog : c.greaseLog = .sink)
    (method : c.greaseConnectMethod = .viaSink) (needsCall : c.sinkFailureNeedsCall = false)
    (sends : SINK_MAX_ERRORS < c.errCnt + 1) (many : c.maxSinkErrors < c.sinkErrorCount + 1) :
    c.act (.log true false) =
      { client :=
          { c with
            errCnt := c.errCnt + 1
            greaseLog := .null
            sinkErrorCount := c.sinkErrorCount + 1
            greaseConnectMethod := .noConnection
            sinkFailureNeedsCall := !c.onSinkFailureCB }
        sends := 1
        callbacks := c.onSinkFailureCB.toNat } := by
  have logged : c.logToSink false =
      ({ c with errCnt := c.errCnt + 1, greaseLog := .null }, false) := by
    simp [GreaseLoggerClient.logToSink, sends]
  have made := sinkFailure_last (c := { c with errCnt := c.errCnt + 1, greaseLog := .null })
    method needsCall many
  rw [act_failed greaseLog, logged, made]

theorem connected_idle (connected : r.Connected) {a : ClientAction}
    (idle : ∀ sent, a ≠ .log true sent) : r.Follows a ∧ (r.record a).Connected := by
  obtain ⟨greaseLog, method, limit, errCnt, sinkErrorCount, few, started, needsCall, wasDue,
    callbacks⟩ := connected
  obtain ⟨registered, stepped⟩ := idle_step (r := r) (a := a) idle
  obtain ⟨sends, sendFails, fails⟩ := idle_kinds (c := r.client) idle
  have due : r.due a = false := by simp [ClientRun.due, fails]
  constructor
  · constructor
    · simp [stepped, due]
    · simp [stepped, method, greaseLog]
    · simp [stepped, sends]
    · simp [greaseLog]
  · constructor <;> simp [record, *]

theorem connected_sent (connected : r.Connected) :
    r.Follows (.log true true) ∧ (r.record (.log true true)).Connected := by
  obtain ⟨greaseLog, method, limit, errCnt, sinkErrorCount, few, started, needsCall, wasDue,
    callbacks⟩ := connected
  have stepped : r.client.act (.log true true) = { client := r.client, sends := 1 } := by
    simp [GreaseLoggerClient.act, greaseLog, GreaseLoggerClient.logToSink]
  obtain ⟨sends, sendFails, fails⟩ := sink_kinds greaseLog true
  have due : r.due (.log true true) = false := by simp [ClientRun.due, fails]
  constructor
  · constructor
    · simp [stepped, due]
    · simp [stepped, method, greaseLog]
    · simp [stepped, sends]
    · simp [greaseLog]
  · constructor <;> simp [record, *]

theorem connected_counted (connected : r.Connected) (last : r.failedSends < SINK_MAX_ERRORS) :
    r.Follows (.log true false) ∧ (r.record (.log true false)).Connected := by
  obtain ⟨greaseLog, method, limit, errCnt, sinkErrorCount, few, started, needsCall, wasDue,
    callbacks⟩ := connected
  have stepped := act_counted greaseLog method needsCall (by omega) (by omega)
  obtain ⟨sends, sendFails, fails⟩ := sink_kinds greaseLog false
  have due : r.due (.log true false) = false := by
    simp [ClientRun.due, sendFails, started, Nat.not_lt.mpr last]
  constructor
  · constructor
    · simp [stepped, due]
    · simp [stepped, method, greaseLog]
    · simp [stepped, sends]
    · simp [greaseLog]
  · have still : r.failedSends + 1 ≤ SINK_MAX_ERRORS := last
    constructor <;> simp [record, *]

theorem connected_last (connected : r.Connected) (last : ¬ r.failedSends < SINK_MAX_ERRORS) :
    r.Follows (.log true false) ∧ (r.record (.log true false)).Ended := by
  obtain ⟨greaseLog, method, limit, errCnt, sinkErrorCount, few, started, needsCall, wasDue,
    callbacks⟩ := connected
  have stepped := act_last greaseLog method needsCall (by omega) (by omega)
  obtain ⟨sends, sendFails, fails⟩ := sink_kinds greaseLog false
  have past : SINK_MAX_ERRORS < r.failedSends + 1 := by omega
  have due : r.due (.log true false) = r.client.onSinkFailureCB := by
    simp [ClientRun.due, sendFails, fails, past]
  constructor
  · constructor
    · simp [stepped, due, wasDue]
    · simp [stepped, method, greaseLog]
    · simp [stepped, sends]
    · simp [greaseLog]
  · constructor
    · simp [record, stepped]
    · simp [record, stepped]
    · exact Or.inr (by simpa [record, sendFails] using past)
    · simp [record, stepped, due, wasDue]
    · simp [record, stepped, due, wasDue, callbacks]

theorem connected_step (connected : r.Connected) (a : ClientAction) :
    r.Follows a ∧ ((r.record a).Connected ∨ (r.record a).Ended) := by
  by_cases logs : ∃ sent, a = .log true sent
  · obtain ⟨sent, rfl⟩ := logs
    cases sent with
    | true => exact (connected_sent connected).imp_right Or.inl
    | false =>
      by_cases last : r.failedSends < SINK_MAX_ERRORS
      · exact (connected_counted connected last).imp_right Or.inl
      · exact (connected_last connected last).imp_right Or.inr
  · exact (connected_idle connected fun sent eq => logs ⟨sent, eq⟩).imp_right Or.inl

theorem run_state (registered connects : Bool) (actions : List ClientAction) :
    (actions.foldl record (start registered connects)).Connected ∨
      (actions.foldl record (start registered connects)).Ended := by
  induction actions using List.reverseRecOn with
  | nil => exact start_state registered connects
  | append_singleton earlier a ih =>
    rw [List.foldl_append]
    cases ih with
    | inl connected => exact (connected_step connected a).2
    | inr ended => exact Or.inr (ended_step ended a).2

theorem ended_sends (ended : r.Ended) (later : List ClientAction) :
    (later.foldl record r).sends = r.sends := by
  induction later generalizing r with
  | nil => rfl
  | cons a later ih =>
    have stepped := ended_step ended a
    have silent := (stepped.1.silent ended.greaseLog).1
    rw [List.foldl_cons, ih stepped.2]
    simp only [record, silent, Nat.add_zero]

theorem run_startFailed (actions : List ClientAction) :
    (actions.foldl record r).startFailed = r.startFailed := by
  induction actions generalizing r with
  | nil => rfl
  | cons a later ih => exact ih (r := r.record a)

/-- Over any calls of Log and SetGlobalOpts the callback is made once at most, by the
    first Log at which it is due. grease_log is NULL if Start failed, and from the send on
    that is one failed send too many; the client gives the connection up in the Log call
    that unsets it, and nothing is sent from then on. -/
theorem client_failures (registered connects : Bool) (actions : List ClientAction) :
    let r := actions.foldl record (start registered connects)
    r.callbacks ≤ 1 ∧
      (∀ a, r.Follows a) ∧
      (r.client.greaseLog = .null ↔ connects = false ∨ SINK_MAX_ERRORS < r.failedSends) ∧
      (r.client.greaseConnectMethod = .noConnection ↔ r.client.greaseLog = .null) ∧
      (r.client.greaseLog = .null →
        ∀ later, ((actions ++ later).foldl record (start registered connects)).sends = r.sends) := by
  intro r
  have startFailed : (r.startFailed = true ↔ connects = false) := by
    have same : r.startFailed = !connects := run_startFailed actions
    simp [same]
  have state : r.Connected ∨ r.Ended := run_state registered connects actions
  rw [← startFailed]
  refine ⟨?_, fun a => ?_, ?_, ?_, fun null later => ?_⟩
  · cases state with
    | inl connected => simp [connected.callbacks]
    | inr ended =>
      rw [ended.callbacks]
      exact Bool.toNat_le r.wasDue
  · cases state with
    | inl connected => exact (connected_step connected a).1
    | inr ended => exact (ended_step ended a).1
  · cases state with
    | inl connected => simp [connected.greaseLog, connected.started, connected.few]
    | inr ended => exact iff_of_true ended.greaseLog ended.past
  · cases state with
    | inl connected => simp [connected.greaseLog, connected.method]
    | inr ended => exact iff_of_true ended.method ended.greaseLog
  · rw [List.foldl_append]
    cases state with
    | inl connected => simp [connected.greaseLog] at null
    | inr ended => exact ended_sends ended later

end ClientRun

end GreaseLog
