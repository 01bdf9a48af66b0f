import GreaseLog.FileOrder
import GreaseLog.SinkFrames

/- From the clients to the file: the socket of a UnixDgramSink, its listener thread, which
   takes one turn of its loop at a time, and the logger with the file of one target. The
   node thread may log in between. -/
namespace GreaseLog

inductive Sent where
  | entry (origin : OriginId) (e : SinkEntry)
  | ping

namespace Sent

def datagram : Sent → List Byte
  | .entry origin e => e.frame origin
  | .ping => bytes32 SINK_LOG_PING

/-- The datagram fits the first buffer, and the entry has a text that the parser can take. The
    client checks none of this. -/
def Fits (rcvBufSize : Nat) (d : Sent) : Prop :=
  d.datagram.length ≤ rcvBufSize ∧
    match d with
    | .entry _ e => e.text ≠ [] ∧ e.text.length ≤ GREASE_MAX_MESSAGE_SIZE
    | .ping => True

instance (rcvBufSize : Nat) (d : Sent) : Decidable (d.Fits rcvBufSize) :=
  match d with
  | .entry _ _ => inferInstanceAs (Decidable (_ ∧ _ ∧ _))
  | .ping => inferInstanceAs (Decidable (_ ∧ True))

def passes (L : Logger) : Sent → Bool
  | .entry origin e => (sift L.filters L.opts { e.m with origin := origin }).1
  | .ping => false

def Arrives : Sent → Message → Prop
  | .entry origin e, message => SameLabels { e.m with origin := origin } message.1.m ∧ message.2 = e.text
  | .ping, _ => False

end Sent

/-- The ledger is what _log has queued, with the datagram it came by if it did. -/
structure SinkServer where
  file : FileState
  socket : List Sent := []
  current : Option Sent := none
  walk : SinkWalk := { remain := 0, remainInBuf := 0 }
  ledger : List (Option Sent × Message) := []

inductive ServerAction where
  | send (d : Sent)
  | receive
  | turn
  | inside (a : FileAction)

def ServerAction.sent? : ServerAction → Option Sent
  | .send d => some d
  | _ => none

def FileAction.noted (a : FileAction) : List (Option Sent × Message) :=
  (a.logged?.map fun message => (none, message)).toList

namespace SinkServer

section
variable (env : Nat → WriteEnv) (id : TargetId) (rcvBufSize : Nat) (behind : List Byte)

def call (s : SinkServer) : SinkCall → SinkServer
  | .pingAck => s
  | .logFromRaw base len =>
    match logFromRaw s.file.L.filters s.file.L.opts base len with
    | .ok (some (x, text)) => { s with
        file := s.file.apply env id (.log x text)
        ledger := s.ledger ++ [(s.current, (x, text))] }
    | _ => s

def apply (s : SinkServer) : ServerAction → SinkServer
  | .send d => { s with socket := s.socket ++ [d] }
  | .receive =>
    match s.current, s.socket with
    | none, d :: rest => { s with
        current := some d
        walk := .startFrom rcvBufSize d.datagram s.walk
        socket := rest }
    | _, _ => s
  | .turn =>
    match s.current with
    | none => s
    | some d =>
      match s.walk.next rcvBufSize d.datagram behind with
      | none => { s with current := none }
      | some (t, calls) => calls.foldl (call env id) { s with walk := t }
  | .inside a => { s with
      file := s.file.apply env id a
      ledger := s.ledger ++ a.noted }

def Logs (s : SinkServer) : SinkCall → Prop
  | .pingAck => True
  | .logFromRaw base len =>
    match logFromRaw s.file.L.filters s.file.L.opts base len with
    | .ok (some (x, text)) => s.file.Allowed id (.log x text)
    | _ => True

instance (s : SinkServer) (c : SinkCall) : Decidable (s.Logs id c) := by
  unfold Logs
  split
  · infer_instance
  · split
    · infer_instance
    · infer_instance

def Allowed (s : SinkServer) : ServerAction → Prop
  | .send d => d.Fits rcvBufSize
  | .receive => True
  | .turn => ∀ d ∈ s.current, ∀ r ∈ s.walk.next rcvBufSize d.datagram behind, ∀ c ∈ r.2, s.Logs id c
  | .inside a => s.file.InTurn env id a ∧ s.file.Allowed id a

instance (s : SinkServer) (a : ServerAction) : Decidable (s.Allowed env id rcvBufSize behind a) :=
  match a with
  | .send d => inferInstanceAs (Decidable (d.Fits rcvBufSize))
  | .receive => inferInstanceAs (Decidable True)
  | .turn => inferInstanceAs (Decidable (∀ d ∈ s.current, _))
  | .inside _ => inferInstanceAs (Decidable (_ ∧ _))

def Step (s : SinkServer) (a : ServerAction) (s' : SinkServer) : Prop :=
  s.Allowed env id rcvBufSize behind a ∧ s' = s.apply env id rcvBufSize behind a

def unheard (s : SinkServer) : List Sent :=
  match s.current with
  | none => s.socket
  | some d => if s.walk.walk < recvCnt rcvBufSize d.datagram then d :: s.socket else s.socket

structure Start (s : SinkServer) (t : LogTarget) : Prop where
  file : s.file.Start id t
  socket : s.socket = []
  current : s.current = none
  ledger : s.ledger = []

end

end SinkServer

/-! One datagram. -/

section
variable {rcvBufSize : Nat} {origin : OriginId} {e : SinkEntry} {w : SinkWalk}

theorem entry_length (origin : OriginId) (e : SinkEntry) :
    (Sent.entry origin e).datagram.length = 88 + e.text.length := by
  show (e.frame origin).length = _
  rw [frame_length, body_length, GREASE_RAWBUF_MIN_SIZE]
  omega

inductive Hears (rcvBufSize : Nat) : Sent → SinkWalk → Prop where
  | start {d : Sent} {w : SinkWalk} (cursor : Cursor rcvBufSize d.datagram .needPreamble 0 w) :
      Hears rcvBufSize d w
  | body {origin : OriginId} {e : SinkEntry} {w : SinkWalk}
      (cursor : Cursor rcvBufSize (Sent.entry origin e).datagram .inLog 8 w)
      (entrySize : w.entrySize.toNat = 80 + e.text.length) : Hears rcvBufSize (.entry origin e) w
  | ended {d : Sent} {w : SinkWalk} (done : recvCnt rcvBufSize d.datagram ≤ w.walk) :
      Hears rcvBufSize d w

theorem hears_ping (behind : List Byte) (fits : Sent.ping.Fits rcvBufSize)
    (cursor : Cursor rcvBufSize Sent.ping.datagram .needPreamble 0 w) :
    ∃ t, w.next rcvBufSize Sent.ping.datagram behind = some (t, [.pingAck]) ∧
      recvCnt rcvBufSize Sent.ping.datagram ≤ t.walk := by
  obtain ⟨received, _⟩ := recvCnt_whole fits.1
  have length : Sent.ping.datagram.length = 4 := bytes32_length _
  have large := fits.1
  have word : word32 ((rawBuffer rcvBufSize Sent.ping.datagram 0 ++ behind).drop 0) 0 = SINK_LOG_PING := by
    rw [List.drop_zero, rawBuffer_whole fits.1]
    show word32 (bytes32 SINK_LOG_PING ++ _ ++ _) 0 = _
    rw [List.append_assoc, word32_front]
  have enough : (GREASE_CLIENT_PING_SIZE : Int) ≤ w.remain := by
    rw [cursor.remain, GREASE_CLIENT_PING_SIZE]
    omega
  refine ⟨w.step GREASE_CLIENT_HEADER_SIZE,
    (cursor.next behind (by omega)).trans (congrArg some ?_), ?_⟩
  · simp only [SinkWalk.turn, cursor.state, walkPreamble, enough, if_true, word]
  · simp only [SinkWalk.step, cursor.walk, GREASE_CLIENT_HEADER_SIZE]
    omega

theorem hears_preamble (behind : List Byte) (fits : (Sent.entry origin e).Fits rcvBufSize)
    (cursor : Cursor rcvBufSize (Sent.entry origin e).datagram .needPreamble 0 w) :
    ∃ t, w.next rcvBufSize (Sent.entry origin e).datagram behind = some (t, []) ∧
      Cursor rcvBufSize (Sent.entry origin e).datagram .inLog 8 t ∧
      t.entrySize.toNat = 80 + e.text.length := by
  obtain ⟨received, _⟩ := recvCnt_whole fits.1
  have length := entry_length origin e
  have large := fits.1
  have size := fits.2.2
  have whole := rawBuffer_whole fits.1
  have word : headerWord rcvBufSize (Sent.entry origin e).datagram 0 = SINK_LOG_PREAMBLE := by
    rw [headerWord, whole]
    exact frame_word e _
  have sized : headerSize rcvBufSize (Sent.entry origin e).datagram 0 =
      UInt32.ofNat (e.text.length + GREASE_RAWBUF_MIN_SIZE) := by
    rw [headerSize, whole]
    exact frame_size e _
  obtain ⟨t, next, inLog, known⟩ := next_preamble behind cursor (by omega) (by omega) word
  refine ⟨t, next, inLog, ?_⟩
  unfold GREASE_MAX_MESSAGE_SIZE at size
  rw [known (by omega), sized, GREASE_RAWBUF_MIN_SIZE, UInt32.toNat_ofNat']
  omega

/-- The entry leads to one call, which gives _log its meta and its text or nothing. -/
theorem hears_body (behind : List Byte) (T : FilterTable) (opts : Opts)
    (fits : (Sent.entry origin e).Fits rcvBufSize)
    (cursor : Cursor rcvBufSize (Sent.entry origin e).datagram .inLog 8 w)
    (entrySize : w.entrySize.toNat = 80 + e.text.length) :
    ∃ t base len, w.next rcvBufSize (Sent.entry origin e).datagram behind =
        some (t, [.logFromRaw base len]) ∧
      recvCnt rcvBufSize (Sent.entry origin e).datagram ≤ t.walk ∧
      ∃ list, logFromRaw T opts base len =
        logP T opts ⟨{ e.m with origin := origin }, list⟩ e.text := by
  obtain ⟨received, first⟩ := recvCnt_whole fits.1
  have length := entry_length origin e
  have large := fits.1
  obtain ⟨text, size⟩ := fits.2
  have small := size
  unfold GREASE_MAX_MESSAGE_SIZE at small
  have some := List.length_pos_of_ne_nil text
  obtain ⟨t, next, after⟩ := next_entry behind cursor (by omega) (by omega) (by omega)
  have base : (rawBuffer rcvBufSize (Sent.entry origin e).datagram 0 ++ behind).drop 8 =
      LogMeta.bytes { e.m with origin := origin } e.padding ++ (e.text ++
        (List.replicate (rcvBufSize - (Sent.entry origin e).datagram.length) 0 ++ behind)) := by
    rw [rawBuffer_whole fits.1, List.append_assoc, ← List.append_assoc _ e.text]
    exact frame_drop e _
  rw [base, entryLen_small entrySize (by omega)] at next
  refine ⟨t, _, _, next, ?_, ?_⟩
  · rw [after.walk]
    omega
  · exact logFromRaw_entry T opts { e.m with origin := origin } e.padding text size _

end

namespace SinkServer
open FileState (Tracks FileOn)

section
variable (env : Nat → WriteEnv) (id : TargetId) (rcvBufSize : Nat) (L₀ : Logger) (t₀ : LogTarget)

structure Follows (s : SinkServer) (t : LogTarget) (sent : List Sent) : Prop where
  tracks : Tracks env id L₀ t₀ s.file t (s.ledger.map Prod.snd)
  arrives : ∀ p ∈ s.ledger, ∀ d ∈ p.1, d.Arrives p.2
  heard : s.ledger.filterMap Prod.fst ++ (s.unheard rcvBufSize).filter (Sent.passes L₀) =
    sent.filter (Sent.passes L₀)
  current : ∀ d, s.current = some d → d.Fits rcvBufSize ∧ Hears rcvBufSize d s.walk
  socket : ∀ d ∈ s.socket, d.Fits rcvBufSize

end

variable {env : Nat → WriteEnv} {id : TargetId} {rcvBufSize : Nat} {behind : List Byte} {L₀ : Logger}
  {t₀ t : LogTarget} {s : SinkServer} {sent : List Sent} {d : Sent}

theorem send_follows (follows : Follows env id rcvBufSize L₀ t₀ s t sent) (fits : d.Fits rcvBufSize) :
    Follows env id rcvBufSize L₀ t₀ { s with socket := s.socket ++ [d] } t (sent ++ [d]) := by
  have added : ({ s with socket := s.socket ++ [d] } : SinkServer).unheard rcvBufSize =
      s.unheard rcvBufSize ++ [d] := by
    unfold unheard
    cases s.current with
    | none => rfl
    | some c =>
      dsimp only
      split
      · rfl
      · rfl
  refine ⟨follows.tracks, follows.arrives, ?_, follows.current, ?_⟩
  · rw [added, List.filter_append, List.filter_append, ← follows.heard, List.append_assoc]
  · intro other member
    rcases List.mem_append.mp member with before | new
    · exact follows.socket other before
    · rwa [List.mem_singleton.mp new]

theorem datagram_filled (d : Sent) (fits : d.Fits rcvBufSize) : 0 < recvCnt rcvBufSize d.datagram := by
  rw [(recvCnt_whole fits.1).1]
  cases d with
  | entry origin e =>
    rw [entry_length]
    omega
  | ping => exact Nat.lt_of_lt_of_eq (by decide) (bytes32_length SINK_LOG_PING).symm

theorem receive_follows {rest : List Sent} (follows : Follows env id rcvBufSize L₀ t₀ s t sent)
    (idle : s.current = none) (next : s.socket = d :: rest) :
    Follows env id rcvBufSize L₀ t₀ { s with
      current := some d
      walk := .startFrom rcvBufSize d.datagram s.walk
      socket := rest } t sent := by
  have fits := follows.socket d (by rw [next]; exact List.mem_cons_self)
  have cursor : Cursor rcvBufSize d.datagram .needPreamble 0 (.startFrom rcvBufSize d.datagram s.walk) :=
    startFrom_cursor s.walk
  have filled := datagram_filled d fits
  refine ⟨follows.tracks, follows.arrives, ?_, ?_, ?_⟩
  · rw [← follows.heard]
    unfold unheard
    dsimp only
    rw [idle, next, cursor.walk, if_pos (by omega)]
  · intro other is
    obtain rfl : d = other := Option.some.inj is
    exact ⟨fits, .start cursor⟩
  · intro other member
    exact follows.socket other (by rw [next]; exact List.mem_cons_of_mem d member)

theorem walk_follows {w : SinkWalk} (follows : Follows env id rcvBufSize L₀ t₀ s t sent)
    (at_ : s.current = some d) (hears : Hears rcvBufSize d w)
    (same : (if w.walk < recvCnt rcvBufSize d.datagram then d :: s.socket else s.socket).filter
        (Sent.passes L₀) = (s.unheard rcvBufSize).filter (Sent.passes L₀)) :
    Follows env id rcvBufSize L₀ t₀ { s with current := some d, walk := w } t sent := by
  rw [← at_]
  refine ⟨follows.tracks, follows.arrives, ?_, ?_, follows.socket⟩
  · rw [← follows.heard, ← same]
    unfold unheard
    dsimp only
    rw [at_]
  · intro d' is
    obtain rfl := Option.some.inj (at_.symm.trans is)
    exact ⟨(follows.current d at_).1, hears⟩

theorem log_follows {origin : OriginId} {e : SinkEntry} {w : SinkWalk} {list : Fin 11 → TargetId}
    (follows : Follows env id rcvBufSize L₀ t₀ s t sent) (at_ : s.current = some (.entry origin e))
    (more : s.walk.walk < recvCnt rcvBufSize (Sent.entry origin e).datagram)
    (done : recvCnt rcvBufSize (Sent.entry origin e).datagram ≤ w.walk)
    (passes : (Sent.entry origin e).passes L₀ = true)
    (allowed : s.file.Allowed id (.log ⟨(sift s.file.L.filters s.file.L.opts
      { e.m with origin := origin }).2, list⟩ e.text)) :
    Follows env id rcvBufSize L₀ t₀ { s with
      current := some (.entry origin e)
      walk := w
      file := s.file.apply env id (.log ⟨(sift s.file.L.filters s.file.L.opts
        { e.m with origin := origin }).2, list⟩ e.text)
      ledger := s.ledger ++ [(some (.entry origin e), (⟨(sift s.file.L.filters s.file.L.opts
        { e.m with origin := origin }).2, list⟩, e.text))] } t sent := by
  rw [← at_]
  obtain ⟨tag, level, from_, -, -⟩ := sift_keeps s.file.L.filters s.file.L.opts { e.m with origin := origin }
  refine ⟨?_, ?_, ?_, ?_, follows.socket⟩
  · rw [List.map_append]
    exact FileState.log_tracks follows.tracks allowed
  · intro p member
    rcases List.mem_append.mp member with before | new
    · exact follows.arrives p before
    · obtain rfl := List.mem_singleton.mp new
      intro d is
      obtain rfl := Option.some.inj (at_.symm.trans is)
      exact ⟨⟨level, tag, from_⟩, rfl⟩
  · have heard := follows.heard
    unfold unheard at heard ⊢
    dsimp only
    rw [at_] at heard ⊢
    dsimp only at heard ⊢
    rw [if_pos more, List.filter_cons_of_pos passes] at heard
    rw [if_neg (by omega), ← heard, List.filterMap_append, List.append_assoc]
    rfl
  · intro d is
    obtain rfl := Option.some.inj (at_.symm.trans is)
    exact ⟨(follows.current _ at_).1, .ended done⟩

theorem turn_follows (follows : Follows env id rcvBufSize L₀ t₀ s t sent)
    (allowed : s.Allowed env id rcvBufSize behind .turn) :
    Follows env id rcvBufSize L₀ t₀ (s.apply env id rcvBufSize behind .turn) t sent := by
  rw [apply]
  cases at_ : s.current with
  | none => exact follows
  | some d =>
    obtain ⟨fits, hears⟩ := follows.current d at_
    have before : s.unheard rcvBufSize =
        if s.walk.walk < recvCnt rcvBufSize d.datagram then d :: s.socket else s.socket := by
      unfold unheard
      rw [at_]
    dsimp only
    cases hears with
    | start cursor =>
      have filled := datagram_filled d fits
      have first : s.walk.walk < recvCnt rcvBufSize d.datagram := by
        rw [cursor.walk]
        omega
      rw [if_pos first] at before
      cases d with
      | ping =>
        obtain ⟨w, next, done⟩ := hears_ping behind fits cursor
        rw [next]
        dsimp only [List.foldl_cons, List.foldl_nil, call]
        refine walk_follows follows at_ (.ended done) ?_
        rw [before, if_neg (by omega)]
        rfl
      | entry origin e =>
        obtain ⟨w, next, inLog, entrySize⟩ := hears_preamble behind fits cursor
        rw [next]
        dsimp only [List.foldl_nil]
        refine walk_follows follows at_ (.body inLog entrySize) ?_
        have length := entry_length origin e
        obtain ⟨received, _⟩ := recvCnt_whole fits.1
        rw [before, if_pos]
        rw [inLog.walk]
        omega
    | @body origin e _ cursor entrySize =>
      obtain ⟨w, base, len, next, done, list, raw⟩ :=
        hears_body behind s.file.L.filters s.file.L.opts fits cursor entrySize
      have length := entry_length origin e
      obtain ⟨received, _⟩ := recvCnt_whole fits.1
      have more : s.walk.walk < recvCnt rcvBufSize (Sent.entry origin e).datagram := by
        rw [cursor.walk]
        omega
      have logs := allowed _ at_ _ next _ (List.mem_singleton_self _)
      have decides : (Sent.entry origin e).passes L₀ =
          (sift s.file.L.filters s.file.L.opts { e.m with origin := origin }).1 := by
        rw [Sent.passes, follows.tracks.same.filters, follows.tracks.same.opts]
      have small := fits.2.2
      rw [next]
      dsimp only [List.foldl_cons, List.foldl_nil, call]
      unfold Logs at logs
      dsimp only at logs
      rw [raw, logP, if_neg (Nat.not_lt.mpr small)] at logs ⊢
      rw [if_pos more] at before
      cases passes : (sift s.file.L.filters s.file.L.opts { e.m with origin := origin }).1 with
      | true =>
        simp only [passes, if_true] at logs ⊢
        rw [passes] at decides
        exact log_follows follows at_ more done decides logs
      | false =>
        simp only [passes, Bool.false_eq_true, if_false]
        rw [passes] at decides
        refine walk_follows follows at_ (.ended done) ?_
        rw [before, if_neg (by omega), List.filter_cons_of_neg (by rw [decides]; simp)]
    | ended done =>
      rw [next_ended done]
      rw [if_neg (by omega)] at before
      refine ⟨follows.tracks, follows.arrives, ?_, ?_, follows.socket⟩
      · rw [← follows.heard, before]
        rfl
      · intro d is
        cases is

theorem inside_follows (on : FileOn t₀) (follows : Follows env id rcvBufSize L₀ t₀ s t sent)
    {a : FileAction} (turn : s.file.InTurn env id a) (allowed : s.file.Allowed id a) :
    ∃ t', Follows env id rcvBufSize L₀ t₀ { s with
      file := s.file.apply env id a
      ledger := s.ledger ++ a.noted } t' sent := by
  obtain ⟨t', tracks⟩ := FileState.step_tracks on follows.tracks turn ⟨allowed, rfl⟩
  have noted : a.noted.map Prod.snd = FileState.logged [a] ∧ a.noted.filterMap Prod.fst = [] ∧
      ∀ p ∈ a.noted, p.1 = none := by
    unfold FileAction.noted FileState.logged
    cases logs : a.logged? with
    | none => simp [logs]
    | some message => simp [logs]
  refine ⟨t', ?_, ?_, ?_, follows.current, follows.socket⟩
  · rw [List.map_append, noted.1]
    exact tracks
  · intro p member d is
    rcases List.mem_append.mp member with before | new
    · exact follows.arrives p before d is
    · rw [noted.2.2 p new] at is
      cases is
  · rw [List.filterMap_append, noted.2.1, List.append_nil]
    exact follows.heard

/-! The runs. -/

def sentBy (actions : List ServerAction) : List Sent := actions.filterMap ServerAction.sent?

theorem step_follows {s' : SinkServer} {a : ServerAction} (on : FileOn t₀)
    (follows : Follows env id rcvBufSize L₀ t₀ s t sent) (step : s.Step env id rcvBufSize behind a s') :
    ∃ t', Follows env id rcvBufSize L₀ t₀ s' t' (sent ++ sentBy [a]) := by
  obtain ⟨allowed, rfl⟩ := step
  cases a with
  | send d => exact ⟨t, send_follows follows allowed⟩
  | receive =>
    rw [show sentBy [.receive] = [] from rfl, List.append_nil]
    refine ⟨t, ?_⟩
    rw [apply]
    split
    · rename_i d rest idle next
      exact receive_follows follows idle next
    · exact follows
  | turn =>
    rw [show sentBy [.turn] = [] from rfl, List.append_nil]
    exact ⟨t, turn_follows follows allowed⟩
  | inside a =>
    rw [show sentBy [.inside a] = [] from rfl, List.append_nil]
    exact inside_follows on follows allowed.1 allowed.2

theorem run_follows {start : SinkServer} (new : start.Start id t₀) {actions : List ServerAction}
    (run : Runs.Run (Step env id rcvBufSize behind) start actions s) :
    ∃ t, Follows env id rcvBufSize start.file.L t₀ s t (sentBy actions) := by
  obtain ⟨on, tracks⟩ := FileState.start_tracks env new.file
  have first : Follows env id rcvBufSize start.file.L t₀ start t₀ [] := by
    refine ⟨?_, ?_, ?_, ?_, ?_⟩
    · rw [new.ledger]
      exact tracks
    · simp [new.ledger]
    · simp [new.ledger, unheard, new.current, new.socket]
    · simp [new.current]
    · simp [new.socket]
  refine Runs.run_history (fun actions s => ∃ t, Follows env id rcvBufSize start.file.L t₀ s t
    (sentBy actions)) ⟨t₀, first⟩ ?_ run
  rintro actions s a s' ⟨t, follows⟩ step
  have split : sentBy (actions ++ [a]) = sentBy actions ++ sentBy [a] := List.filterMap_append
  rw [split]
  exact step_follows on follows step

/-- What clients send ends up in the file, entry for entry and in the order in which it was
    sent, whatever the node thread logs in between: what is in the file and on its way to it
    is made of the entries of the first messages, the others wait, and the messages that came
    by the socket have the meta and the text of the first of those sent that the logger
    takes; the others have not been received. -/
theorem sent_reaches_file {start : SinkServer} (new : start.Start id t₀) {actions : List ServerAction}
    (run : Runs.Run (Step env id rcvBufSize behind) start actions s) :
    (∃ entries, List.Forall₂ (start.file.L.IsEntry env t₀)
        ((s.ledger.map Prod.snd).take entries.length) entries ∧
      s.file.file ++ s.file.unwritten id = entries.flatten ∧
      entries.length + s.file.waiting = s.ledger.length) ∧
    (∀ p ∈ s.ledger, ∀ d ∈ p.1, d.Arrives p.2) ∧
    s.ledger.filterMap Prod.fst ++ (s.unheard rcvBufSize).filter (Sent.passes start.file.L) =
      (sentBy actions).filter (Sent.passes start.file.L) := by
  obtain ⟨t, follows⟩ := run_follows new run
  refine ⟨?_, follows.arrives, follows.heard⟩
  obtain ⟨done, current, queued, entries, account⟩ := follows.tracks.account
  have made := account.made.length_eq
  have all : s.ledger.length = done.length + current.length + queued.length := by
    rw [← List.length_map Prod.snd, account.sent, List.length_append, List.length_append]
  refine ⟨entries, ?_, ?_, ?_⟩
  · rw [account.sent, List.append_assoc, ← made, List.take_left]
    exact account.made
  · rw [← account.bytes, FileState.unwritten, follows.tracks.found]
    rfl
  · have writing := account.current.length_eq
    have waits := account.queued.length_eq
    rw [all, FileState.waiting, List.countP_eq_length_filter]
    omega

def lineEntry (text : List Byte) : SinkEntry :=
  { m := { noMetaData with level := 1 }, padding := fun _ => 0, text := text }

/-- A client process pings, and logs "a", which is written, "b", which waits for the handler, and
    "c", which is not received. -/
def pingAndLine : List ServerAction :=
  [.send .ping, .send (.entry 0x15000001 (lineEntry [97])), .receive, .turn, .turn, .receive, .turn,
    .turn, .turn, .inside .handle, .inside (.flushAll true false), .inside .land,
    .send (.entry 0x15000001 (lineEntry [98])), .send (.entry 0x15000001 (lineEntry [99])), .receive,
    .turn, .turn, .turn]

theorem sent_reaches_file_line :
    let s := pingAndLine.foldl (apply plainEnvs 0 200 []) { file := FileState.oneFile }
    s.file.file = [97, 10] ∧
      (∃ entries : List (List Byte), s.file.file ++ s.file.unwritten 0 = entries.flatten ∧
        entries.length + s.file.waiting = s.ledger.length) ∧
      s.ledger.filterMap Prod.fst ++ (s.unheard 200).filter (Sent.passes FileState.oneFile.L) =
        (sentBy pingAndLine).filter (Sent.passes FileState.oneFile.L) ∧
      (s.ledger.length, s.file.waiting, (s.unheard 200).length) = (2, 1, 1) := by
  have checked : Runs.Checked (fun s a => s.Allowed plainEnvs 0 200 [] a) (apply plainEnvs 0 200 [])
      { file := FileState.oneFile } pingAndLine := by decide +kernel
  have new : Start 0 { file := FileState.oneFile } FileState.fileTarget :=
    ⟨FileState.oneFile_start, rfl, rfl, rfl⟩
  obtain ⟨⟨entries, _, bytes, count⟩, _, heard⟩ :=
    sent_reaches_file new (Runs.run_checked (fun s a h => ⟨h, rfl⟩) checked)
  exact ⟨by decide +kernel, ⟨entries, bytes, count⟩, heard, by decide +kernel⟩

end SinkServer

end GreaseLog
