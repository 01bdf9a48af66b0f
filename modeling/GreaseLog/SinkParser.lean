import GreaseLog.Transport

/- The walk of listener_work over one datagram. Before the walk leaves the first
   receive buffer, its six cursors follow one position: that of the header or of
   the entry it is at. What lies behind the buffer in memory is arbitrary. -/
namespace GreaseLog

section
variable (rcvBufSize : Nat) (datagram behind : List Byte)

def SinkWalk.view (s : SinkWalk) : List Byte :=
  (rawBuffer rcvBufSize datagram s.iovN ++ behind).drop s.walkBuf.toNat

def SinkWalk.next (s : SinkWalk) : Option (SinkWalk × List SinkCall) :=
  if s.walk < recvCnt rcvBufSize datagram then
    (s.nextBuffer rcvBufSize datagram).map fun s => s.turn (s.view rcvBufSize datagram behind)
  else none

inductive Parses : SinkWalk → List SinkCall → SinkWalk → Prop where
  | ended {s : SinkWalk} (none : s.next rcvBufSize datagram behind = none) : Parses s [] s
  | turn {s t u : SinkWalk} {calls others : List SinkCall}
      (some : s.next rcvBufSize datagram behind = some (t, calls)) (rest : Parses t others u) :
      Parses s (calls ++ others) u

def inFirst : Nat := min (recvCnt rcvBufSize datagram) rcvBufSize

def headerWord (p : Nat) : UInt32 := word32 (rawBuffer rcvBufSize datagram 0) p

def headerSize (p : Nat) : UInt32 := word32 (rawBuffer rcvBufSize datagram 0) (p + 4)

structure Cursor (state : SinkState) (p : Nat) (s : SinkWalk) : Prop where
  state : s.state = state
  walk : s.walk = p
  walkBuf : s.walkBuf = p
  remain : s.remain = recvCnt rcvBufSize datagram - p
  remainInBuf : s.remainInBuf = inFirst rcvBufSize datagram - p
  iovN : s.iovN = 0
  headerTempWalk : s.headerTempWalk = 0
  tempBufferWalk : s.tempBufferWalk = 0

/-- The positions at which the parser looks for a header, as far as the first
    buffer decides them. -/
inductive HeaderAt : Nat → Prop where
  | first : HeaderAt 0
  | skip {p : Nat} (before : HeaderAt p) (more : p + 4 ≤ recvCnt rcvBufSize datagram)
      (inside : p + 4 ≤ rcvBufSize) (other : headerWord rcvBufSize datagram p ≠ SINK_LOG_PREAMBLE) :
      HeaderAt (p + 8)
  | entry {p : Nat} (before : HeaderAt p) (more : p + 8 < recvCnt rcvBufSize datagram)
      (inside : p + 8 ≤ rcvBufSize) (preamble : headerWord rcvBufSize datagram p = SINK_LOG_PREAMBLE)
      (whole : p + 8 + (headerSize rcvBufSize datagram p).toNat ≤ inFirst rcvBufSize datagram) :
      HeaderAt (p + 8 + (headerSize rcvBufSize datagram p).toNat)

end

variable {rcvBufSize : Nat} {datagram behind : List Byte} {s t u : SinkWalk} {p : Nat}

theorem rawBuffer_length (n : Nat) : (rawBuffer rcvBufSize datagram n).length = rcvBufSize := by
  simp only [rawBuffer, List.length_append, List.length_replicate, List.length_take]
  omega

theorem next_lands {calls calls' : List SinkCall}
    (some : s.next rcvBufSize datagram behind = some (t, calls))
    (other : s.next rcvBufSize datagram behind = Option.some (u, calls')) : t = u := by
  rw [other] at some
  exact (Prod.mk.inj (Option.some.inj some)).1.symm

theorem parses_unique {calls calls' : List SinkCall} {u' : SinkWalk}
    (one : Parses rcvBufSize datagram behind s calls u)
    (other : Parses rcvBufSize datagram behind s calls' u') : calls = calls' ∧ u = u' := by
  induction one generalizing calls' u' with
  | ended none =>
    cases other with
    | ended _ => exact ⟨rfl, rfl⟩
    | turn some _ =>
      rw [none] at some
      cases some
  | turn some rest ih =>
    cases other with
    | ended none =>
      rw [none] at some
      cases some
    | turn some' rest' =>
      rw [some] at some'
      obtain ⟨rfl, rfl⟩ := Prod.mk.inj (Option.some.inj some')
      obtain ⟨rfl, rfl⟩ := ih rest'
      exact ⟨rfl, rfl⟩

theorem start_cursor : Cursor rcvBufSize datagram .needPreamble 0 (.start rcvBufSize datagram) := by
  have least : min (recvCnt rcvBufSize datagram : Int) rcvBufSize = inFirst rcvBufSize datagram := by
    simp only [inFirst]
    omega
  constructor <;> simp [SinkWalk.start, least]

theorem Cursor.step {state : SinkState} (cursor : Cursor rcvBufSize datagram state p s)
    (state' : SinkState) (entrySize : UInt32) (n : Nat) : Cursor rcvBufSize datagram state' (p + n)
      ({ s with state := state', entrySize := entrySize }.step n) where
  state := rfl
  walk := by simp [SinkWalk.step, cursor.walk]
  walkBuf := by simp [SinkWalk.step, cursor.walkBuf]
  remain := by
    simp only [SinkWalk.step, cursor.remain]
    omega
  remainInBuf := by
    simp only [SinkWalk.step, cursor.remainInBuf]
    omega
  iovN := cursor.iovN
  headerTempWalk := cursor.headerTempWalk
  tempBufferWalk := cursor.tempBufferWalk

theorem Cursor.view {state : SinkState} (cursor : Cursor rcvBufSize datagram state p s)
    (behind : List Byte) :
    s.view rcvBufSize datagram behind = (rawBuffer rcvBufSize datagram 0 ++ behind).drop p := by
  simp only [SinkWalk.view, cursor.iovN, cursor.walkBuf, Int.toNat_natCast]

theorem next_turn (more : s.walk < recvCnt rcvBufSize datagram)
    (inside : s.walkBuf < recvCnt rcvBufSize datagram) :
    s.next rcvBufSize datagram behind = some (s.turn (s.view rcvBufSize datagram behind)) := by
  have stays : s.nextBuffer rcvBufSize datagram = some s := if_neg (by omega)
  simp only [SinkWalk.next, more, if_true, stays, Option.map_some]

theorem Cursor.next {state : SinkState} (cursor : Cursor rcvBufSize datagram state p s)
    (behind : List Byte) (more : p < recvCnt rcvBufSize datagram) :
    s.next rcvBufSize datagram behind =
      some (s.turn ((rawBuffer rcvBufSize datagram 0 ++ behind).drop p)) := by
  rw [← cursor.view behind]
  exact next_turn (by rw [cursor.walk]; omega) (by rw [cursor.walkBuf]; omega)

theorem next_ended (done : recvCnt rcvBufSize datagram ≤ s.walk) :
    s.next rcvBufSize datagram behind = none :=
  if_neg (by omega)

theorem word32_inside {base : List Byte} {p k : Nat} (inside : p + k + 4 ≤ base.length) :
    word32 ((base ++ behind).drop p) k = word32 base (p + k) := by
  simp only [word32, List.drop_drop]
  rw [List.drop_append_of_le_length (by omega), List.take_append_of_le_length]
  rw [List.length_drop]
  omega

theorem headerWord_view (datagram behind : List Byte) (inside : p + 4 ≤ rcvBufSize) :
    word32 ((rawBuffer rcvBufSize datagram 0 ++ behind).drop p) 0 = headerWord rcvBufSize datagram p :=
  word32_inside (by rw [rawBuffer_length]; omega)

theorem headerSize_view (datagram behind : List Byte) (inside : p + 8 ≤ rcvBufSize) :
    word32 ((rawBuffer rcvBufSize datagram 0 ++ behind).drop p) 4 = headerSize rcvBufSize datagram p :=
  word32_inside (by rw [rawBuffer_length]; omega)

/-! What one iteration does, by where it is. -/

theorem next_skip (behind : List Byte) (cursor : Cursor rcvBufSize datagram .needPreamble p s)
    (more : p + 4 ≤ recvCnt rcvBufSize datagram) (inside : p + 4 ≤ rcvBufSize)
    (other : headerWord rcvBufSize datagram p ≠ SINK_LOG_PREAMBLE) :
    ∃ t calls, s.next rcvBufSize datagram behind = some (t, calls) ∧
      Cursor rcvBufSize datagram .needPreamble (p + 8) t := by
  have word := headerWord_view datagram behind inside
  have enough : (GREASE_CLIENT_PING_SIZE : Int) ≤ s.remain := by
    rw [cursor.remain, GREASE_CLIENT_PING_SIZE]
    omega
  have turned : ∃ calls, s.turn ((rawBuffer rcvBufSize datagram 0 ++ behind).drop p) =
      ({ s with state := .needPreamble }.step GREASE_CLIENT_HEADER_SIZE, calls) := by
    simp only [SinkWalk.turn, cursor.state, walkPreamble, enough, if_true, word, other, if_false]
    by_cases ping : headerWord rcvBufSize datagram p = SINK_LOG_PING
    · refine ⟨[.pingAck], ?_⟩
      rw [if_pos ping]
      have same : ({ s with state := .needPreamble } : SinkWalk) = s := by rw [← cursor.state]
      rw [same]
    · exact ⟨[], by rw [if_neg ping]⟩
  obtain ⟨calls, turned⟩ := turned
  refine ⟨_, calls, (cursor.next behind (by omega)).trans (congrArg some turned), ?_⟩
  exact cursor.step .needPreamble s.entrySize 8

theorem next_preamble (behind : List Byte) (cursor : Cursor rcvBufSize datagram .needPreamble p s)
    (more : p + 4 ≤ recvCnt rcvBufSize datagram) (inside : p + 4 ≤ rcvBufSize)
    (preamble : headerWord rcvBufSize datagram p = SINK_LOG_PREAMBLE) :
    ∃ t, s.next rcvBufSize datagram behind = some (t, []) ∧
      Cursor rcvBufSize datagram .inLog (p + 8) t ∧
      (p + 8 ≤ rcvBufSize → t.entrySize = headerSize rcvBufSize datagram p) := by
  have word := headerWord_view datagram behind inside
  have enough : (GREASE_CLIENT_PING_SIZE : Int) ≤ s.remain := by
    rw [cursor.remain, GREASE_CLIENT_PING_SIZE]
    omega
  have noPing : SINK_LOG_PREAMBLE ≠ SINK_LOG_PING := by decide
  refine ⟨_, (cursor.next behind (by omega)).trans (congrArg some ?_),
    cursor.step .inLog (word32 ((rawBuffer rcvBufSize datagram 0 ++ behind).drop p) 4) 8, fun size => ?_⟩
  · simp only [SinkWalk.turn, cursor.state, walkPreamble, enough, if_true, word, preamble, noPing,
      if_false]
    rfl
  · exact headerSize_view datagram behind size

theorem next_crumbs (behind : List Byte) (cursor : Cursor rcvBufSize datagram .needPreamble p s)
    (more : p < recvCnt rcvBufSize datagram) (few : recvCnt rcvBufSize datagram < p + 4) :
    ∃ t, s.next rcvBufSize datagram behind = some (t, []) ∧
      t.walk = recvCnt rcvBufSize datagram := by
  have short : ¬ (GREASE_CLIENT_PING_SIZE : Int) ≤ s.remain := by
    rw [cursor.remain, GREASE_CLIENT_PING_SIZE]
    omega
  have turned : ∃ t, s.turn ((rawBuffer rcvBufSize datagram 0 ++ behind).drop p) = (t, []) ∧
      t.walk = recvCnt rcvBufSize datagram := by
    simp only [SinkWalk.turn, cursor.state, walkPreamble, short, if_false]
    refine ⟨_, rfl, ?_⟩
    simp only [SinkWalk.stepRemain, cursor.walk, cursor.remain]
    omega
  obtain ⟨t, turned, done⟩ := turned
  exact ⟨t, (cursor.next behind more).trans (congrArg some turned), done⟩

theorem next_entry (behind : List Byte) (cursor : Cursor rcvBufSize datagram .inLog p s)
    (small : inFirst rcvBufSize datagram < 2 ^ 32) (more : p < recvCnt rcvBufSize datagram)
    (whole : p + s.entrySize.toNat ≤ inFirst rcvBufSize datagram) :
    ∃ t, s.next rcvBufSize datagram behind = some (t,
        [.logFromRaw ((rawBuffer rcvBufSize datagram 0 ++ behind).drop p) (entryLen s.entrySize)]) ∧
      Cursor rcvBufSize datagram .needPreamble (p + s.entrySize.toNat) t := by
  have fits : (s.entrySize.toNat : Int) ≤ s.remainInBuf % 2 ^ 32 := by
    rw [cursor.remainInBuf, Int.emod_eq_of_lt (by omega) (by omega)]
    omega
  refine ⟨_, (cursor.next behind more).trans (congrArg some ?_),
    cursor.step .needPreamble s.entrySize s.entrySize.toNat⟩
  simp only [SinkWalk.turn, cursor.state, walkLog, cursor.tempBufferWalk, if_true, fits]

theorem next_cut (behind : List Byte) (cursor : Cursor rcvBufSize datagram .inLog p s)
    (more : p < recvCnt rcvBufSize datagram) (inside : p ≤ inFirst rcvBufSize datagram)
    (cut : inFirst rcvBufSize datagram < p + s.entrySize.toNat) :
    ∃ t, s.next rcvBufSize datagram behind = some (t, []) ∧ t.state = .inLog ∧
      t.walk = inFirst rcvBufSize datagram ∧ t.walkBuf = inFirst rcvBufSize datagram ∧
      t.remain = recvCnt rcvBufSize datagram - inFirst rcvBufSize datagram ∧
      t.remainInBuf = 0 ∧ t.iovN = 0 ∧ t.headerTempWalk = 0 ∧
      t.tempBufferWalk = inFirst rcvBufSize datagram - p ∧ t.entrySize = s.entrySize := by
  have short : ¬ (s.entrySize.toNat : Int) ≤ s.remainInBuf % 2 ^ 32 := by
    rw [cursor.remainInBuf]
    omega
  have turned : ∃ t, s.turn ((rawBuffer rcvBufSize datagram 0 ++ behind).drop p) = (t, []) ∧
      t.state = .inLog ∧ t.walk = inFirst rcvBufSize datagram ∧
      t.walkBuf = inFirst rcvBufSize datagram ∧
      t.remain = recvCnt rcvBufSize datagram - inFirst rcvBufSize datagram ∧
      t.remainInBuf = 0 ∧ t.iovN = 0 ∧ t.headerTempWalk = 0 ∧
      t.tempBufferWalk = inFirst rcvBufSize datagram - p ∧ t.entrySize = s.entrySize := by
    simp only [SinkWalk.turn, cursor.state, walkLog, cursor.tempBufferWalk, if_true, short, if_false]
    refine ⟨_, rfl, rfl, ?_, ?_, ?_, ?_, cursor.iovN, cursor.headerTempWalk,
      cursor.remainInBuf, rfl⟩
    · simp only [SinkWalk.step, cursor.walk, cursor.remainInBuf]
      omega
    · simp only [SinkWalk.step, cursor.walkBuf, cursor.remainInBuf]
      omega
    · simp only [SinkWalk.step, cursor.remain, cursor.remainInBuf]
      omega
    · simp only [SinkWalk.step, cursor.remainInBuf]
      omega
  obtain ⟨t, turned, rest⟩ := turned
  exact ⟨t, (cursor.next behind more).trans (congrArg some turned), rest⟩

theorem inFirst_le (rcvBufSize : Nat) (datagram : List Byte) :
    inFirst rcvBufSize datagram ≤ recvCnt rcvBufSize datagram ∧
      inFirst rcvBufSize datagram ≤ rcvBufSize :=
  ⟨Nat.min_le_left _ _, Nat.min_le_right _ _⟩

/-- The loop with nothing behind the buffer is the one that the calls were read off. -/
theorem parses_listen {calls : List SinkCall} (parses : Parses rcvBufSize datagram [] s calls u) :
    ∃ fuel, listen rcvBufSize datagram fuel s = calls := by
  induction parses with
  | @ended s none =>
    refine ⟨1, ?_⟩
    unfold SinkWalk.next at none
    unfold listen
    split
    · next more =>
      rw [if_pos more, Option.map_eq_none_iff] at none
      rw [none]
    · rfl
  | @turn s t u calls others some rest ih =>
    obtain ⟨fuel, same⟩ := ih
    refine ⟨fuel + 1, ?_⟩
    unfold SinkWalk.next at some
    unfold listen
    split at some
    · next more =>
      rw [if_pos more]
      obtain ⟨s', next, turned⟩ := Option.map_eq_some_iff.mp some
      rw [SinkWalk.view, List.append_nil] at turned
      simp only [next, turned, same]
    · cases some

end GreaseLog
