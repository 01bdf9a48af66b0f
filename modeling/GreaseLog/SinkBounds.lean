import GreaseLog.SinkParser

/- Which memory the loop of listener_work touches, and whether it ends. Both hold
   as long as one receive buffer takes the datagram, but for a header that ends
   behind the buffer and an entry that is larger than the reassembly buffer. The
   next buffer is never used: walk_buf is compared with recv_cnt. -/
namespace GreaseLog

/-- What one iteration reads and copies. Offsets are into the current receive
    buffer, or into the array copied to. -/
inductive Access where
  | read (offset length : Int)
  /-- A slice of the receive buffer that is given to logFromRaw. -/
  | slice (offset length : Int)
  /-- A slice of temp_buffer_entry, with how much of it has been filled. -/
  | sliceTemp (filled length : Int)
  | toHeader (offset length : Int)
  | toTemp (offset length : Int)

section
variable (rcvBufSize : Nat) (datagram behind : List Byte)

def Access.InBounds (received : Nat) : Access → Prop
  | .read offset length => 0 ≤ offset ∧ 0 ≤ length ∧ offset + length ≤ rcvBufSize
  | .slice offset length => 0 ≤ offset ∧ 0 ≤ length ∧ offset + length ≤ received
  | .sliceTemp filled length => 0 ≤ length ∧ length ≤ filled
  | .toHeader offset length =>
    0 ≤ offset ∧ 0 ≤ length ∧ offset + length ≤ GREASE_CLIENT_HEADER_SIZE
  | .toTemp offset length => 0 ≤ offset ∧ 0 ≤ length ∧ offset + length ≤ GREASE_MAX_MESSAGE_SIZE

def preambleAccesses (s : SinkWalk) (view : List Byte) : List Access :=
  if (GREASE_CLIENT_PING_SIZE : Int) ≤ s.remain then
    if word32 view 0 = SINK_LOG_PING then [.read s.walkBuf 4]
    else if word32 view 0 = SINK_LOG_PREAMBLE then [.read s.walkBuf 4, .read (s.walkBuf + 4) 4]
    else [.read s.walkBuf 4]
  else [.read s.walkBuf s.remain, .toHeader s.headerTempWalk s.remain]

def inPreambleAccesses (s : SinkWalk) : List Access :=
  let nibble := GREASE_CLIENT_HEADER_SIZE - s.headerTempWalk
  [.read s.walkBuf nibble, .toHeader s.headerTempWalk nibble]

def logAccesses (s : SinkWalk) : List Access :=
  if s.tempBufferWalk = 0 then
    if (s.entrySize.toNat : Int) ≤ s.remainInBuf % 2 ^ 32 then
      [.slice s.walkBuf (entryLen s.entrySize)]
    else [.read s.walkBuf s.remainInBuf, .toTemp 0 s.remainInBuf]
  else
    let need := s.entrySize.toNat - s.tempBufferWalk
    [.read s.walkBuf need, .toTemp s.tempBufferWalk need] ++
      if need ≤ s.remainInBuf then [.sliceTemp (s.tempBufferWalk + need) (entryLen s.entrySize)] else []

def SinkWalk.accesses (s : SinkWalk) (view : List Byte) : List Access :=
  match s.state with
  | .needPreamble => preambleAccesses s view
  | .inPreamble => inPreambleAccesses s
  | .inLog => logAccesses s

def SinkWalk.InBounds (s : SinkWalk) : Prop :=
  s.walk < recvCnt rcvBufSize datagram → ∀ s', s.nextBuffer rcvBufSize datagram = some s' →
    ∀ a ∈ s'.accesses (s'.view rcvBufSize datagram behind),
      a.InBounds rcvBufSize ((datagram.drop (s'.iovN * rcvBufSize)).take rcvBufSize).length

inductive Comes : SinkWalk → Prop where
  | start : Comes (.start rcvBufSize datagram)
  | turn {s t : SinkWalk} {calls : List SinkCall} (before : Comes s)
      (some : s.next rcvBufSize datagram behind = some (t, calls)) : Comes t

def StaysInBounds : Prop := ∀ s, Comes rcvBufSize datagram behind s → s.InBounds rcvBufSize datagram behind

/-- Every header that the parser comes to lies in the first buffer; an entry that
    is not all there has no more there than the reassembly buffer can take, and
    where the datagram goes on behind the buffer it has nothing there. -/
def HeadersInBounds : Prop :=
  ∀ p, HeaderAt rcvBufSize datagram p → p < recvCnt rcvBufSize datagram →
    if recvCnt rcvBufSize datagram < p + 4 then recvCnt rcvBufSize datagram ≤ rcvBufSize
    else p + 4 ≤ rcvBufSize ∧ (headerWord rcvBufSize datagram p = SINK_LOG_PREAMBLE →
      p + 8 ≤ rcvBufSize ∧ (p + 8 < recvCnt rcvBufSize datagram →
        inFirst rcvBufSize datagram < p + 8 + (headerSize rcvBufSize datagram p).toNat →
          inFirst rcvBufSize datagram ≤ p + 8 + GREASE_MAX_MESSAGE_SIZE ∧
            (recvCnt rcvBufSize datagram ≤ rcvBufSize ∨ p + 8 = rcvBufSize)))

end

variable {rcvBufSize : Nat} {datagram : List Byte} {behind : List Byte} {s t u : SinkWalk} {p : Nat}

theorem Cursor.inBounds {state : SinkState} (cursor : Cursor rcvBufSize datagram state p s)
    (behind : List Byte) (more : p < recvCnt rcvBufSize datagram) :
    s.InBounds rcvBufSize datagram behind ↔
      ∀ a ∈ s.accesses ((rawBuffer rcvBufSize datagram 0 ++ behind).drop p),
        a.InBounds rcvBufSize (inFirst rcvBufSize datagram) := by
  have stays : s.nextBuffer rcvBufSize datagram = some s :=
    if_neg (by rw [cursor.walkBuf]; omega)
  have received : ((datagram.drop (s.iovN * rcvBufSize)).take rcvBufSize).length =
      inFirst rcvBufSize datagram := by
    simp only [cursor.iovN, Nat.zero_mul, List.drop_zero, List.length_take, inFirst, recvCnt,
      SINK_NBUFFERS]
    omega
  rw [← cursor.view behind, ← received]
  constructor
  · intro inside
    exact inside (by rw [cursor.walk]; omega) s stays
  · intro inside _ s' next
    obtain rfl : s = s' := Option.some.inj (stays.symm.trans next)
    exact inside

theorem header_inBounds (behind : List Byte) (cursor : Cursor rcvBufSize datagram .needPreamble p s)
    (more : p < recvCnt rcvBufSize datagram) :
    s.InBounds rcvBufSize datagram behind ↔
      if recvCnt rcvBufSize datagram < p + 4 then recvCnt rcvBufSize datagram ≤ rcvBufSize
      else p + 4 ≤ rcvBufSize ∧ (headerWord rcvBufSize datagram p = SINK_LOG_PREAMBLE →
        p + 8 ≤ rcvBufSize) := by
  rw [cursor.inBounds behind more]
  have all : s.accesses ((rawBuffer rcvBufSize datagram 0 ++ behind).drop p) =
      preambleAccesses s ((rawBuffer rcvBufSize datagram 0 ++ behind).drop p) := by
    simp only [SinkWalk.accesses, cursor.state]
  have noPing : SINK_LOG_PREAMBLE ≠ SINK_LOG_PING := by decide
  rw [all]
  split
  · next few =>
    have short : ¬ (GREASE_CLIENT_PING_SIZE : Int) ≤ s.remain := by
      rw [cursor.remain, GREASE_CLIENT_PING_SIZE]
      omega
    have two : preambleAccesses s ((rawBuffer rcvBufSize datagram 0 ++ behind).drop p) =
        [.read s.walkBuf s.remain, .toHeader s.headerTempWalk s.remain] := if_neg short
    rw [two]
    simp only [List.mem_cons, List.not_mem_nil, or_false, forall_eq_or_imp, forall_eq,
      Access.InBounds, cursor.walkBuf, cursor.remain, cursor.headerTempWalk,
      GREASE_CLIENT_HEADER_SIZE]
    omega
  · next many =>
    have enough : (GREASE_CLIENT_PING_SIZE : Int) ≤ s.remain := by
      rw [cursor.remain, GREASE_CLIENT_PING_SIZE]
      omega
    by_cases inside : p + 4 ≤ rcvBufSize
    · have word := headerWord_view datagram behind inside
      simp only [preambleAccesses, enough, if_true, word]
      by_cases preamble : headerWord rcvBufSize datagram p = SINK_LOG_PREAMBLE
      · simp only [preamble, noPing, if_false, if_true, List.mem_cons, List.not_mem_nil, or_false,
          forall_eq_or_imp, forall_eq, Access.InBounds, cursor.walkBuf, true_implies]
        omega
      · have one : (if headerWord rcvBufSize datagram p = SINK_LOG_PING then [Access.read s.walkBuf 4]
            else if headerWord rcvBufSize datagram p = SINK_LOG_PREAMBLE then
              [.read s.walkBuf 4, .read (s.walkBuf + 4) 4]
            else [.read s.walkBuf 4]) = [.read s.walkBuf 4] := by
          rw [if_neg preamble, ite_self]
        rw [one]
        simp only [List.mem_singleton, forall_eq, Access.InBounds, cursor.walkBuf]
        constructor
        · intro _
          exact ⟨inside, fun is => absurd is preamble⟩
        · intro _
          omega
    · have first : .read s.walkBuf 4 ∈ preambleAccesses s
          ((rawBuffer rcvBufSize datagram 0 ++ behind).drop p) := by
        simp only [preambleAccesses, enough, if_true]
        split
        · simp
        · split <;> simp
      constructor
      · intro bounds
        have read := (bounds _ first).2.2
        rw [cursor.walkBuf] at read
        omega
      · intro bounds
        exact absurd bounds.1 inside

theorem entry_inBounds (behind : List Byte) (int : rcvBufSize < 2 ^ 31)
    (cursor : Cursor rcvBufSize datagram .inLog p s) (more : p < recvCnt rcvBufSize datagram)
    (inside : p ≤ rcvBufSize) :
    s.InBounds rcvBufSize datagram behind ↔
      (inFirst rcvBufSize datagram < p + s.entrySize.toNat →
        inFirst rcvBufSize datagram ≤ p + GREASE_MAX_MESSAGE_SIZE) := by
  have limit := inFirst_le rcvBufSize datagram
  have reached : p ≤ inFirst rcvBufSize datagram := Nat.le_min.mpr ⟨Nat.le_of_lt more, inside⟩
  rw [cursor.inBounds behind more]
  simp only [SinkWalk.accesses, cursor.state, logAccesses, cursor.tempBufferWalk, if_true]
  have left : s.remainInBuf % 2 ^ 32 = (inFirst rcvBufSize datagram : Int) - p := by
    rw [cursor.remainInBuf, Int.emod_eq_of_lt (by omega) (by omega)]
  rw [left]
  split
  · next fits =>
    have length : entryLen s.entrySize = s.entrySize.toNat := entryLen_small rfl (by omega)
    simp only [List.mem_singleton, forall_eq, Access.InBounds, cursor.walkBuf, length]
    omega
  · next short =>
    simp only [List.mem_cons, List.not_mem_nil, or_false, forall_eq_or_imp, forall_eq,
      Access.InBounds, cursor.walkBuf, cursor.remainInBuf]
    omega

theorem next_behind (behind : List Byte) (cursor : Cursor rcvBufSize datagram .inLog p s)
    (long : rcvBufSize < recvCnt rcvBufSize datagram) (inside : p < rcvBufSize)
    (cut : rcvBufSize < p + s.entrySize.toNat) :
    ∃ t, s.next rcvBufSize datagram behind = some (t, []) ∧ t.walk = rcvBufSize ∧
      ¬ t.InBounds rcvBufSize datagram behind := by
  have first : inFirst rcvBufSize datagram = rcvBufSize := Nat.min_eq_right (Nat.le_of_lt long)
  obtain ⟨t, step, state, walk, walkBuf, _, _, _, _, temp, size⟩ :=
    next_cut behind cursor (by omega) (by omega) (by omega)
  refine ⟨t, step, by rw [walk, first], fun bounds => ?_⟩
  have stays : t.nextBuffer rcvBufSize datagram = some t := if_neg (by rw [walkBuf]; omega)
  have used : t.tempBufferWalk ≠ 0 := by omega
  have copied : .read t.walkBuf (t.entrySize.toNat - t.tempBufferWalk) ∈
      t.accesses (t.view rcvBufSize datagram behind) := by
    simp only [SinkWalk.accesses, state, logAccesses, used, if_false]
    exact List.mem_append_left _ (List.mem_cons_self ..)
  have read := (bounds (by omega) t stays _ copied).2.2
  rw [walkBuf, size, temp] at read
  omega

/-- A header that ends where the buffer ends: the parser does not get on. -/
theorem next_stuck (behind : List Byte) (cursor : Cursor rcvBufSize datagram .inLog rcvBufSize s)
    (long : rcvBufSize < recvCnt rcvBufSize datagram) (data : 0 < s.entrySize.toNat) :
    ∃ t, s.next rcvBufSize datagram behind = some (t, []) ∧
      Cursor rcvBufSize datagram .inLog rcvBufSize t ∧ t.entrySize = s.entrySize := by
  have first : inFirst rcvBufSize datagram = rcvBufSize := Nat.min_eq_right (Nat.le_of_lt long)
  obtain ⟨t, step, state, walk, walkBuf, remain, remainInBuf, iovN, header, temp, size⟩ :=
    next_cut behind cursor long (by omega) (by omega)
  refine ⟨t, step, ⟨state, ?_, ?_, ?_, ?_, iovN, header, ?_⟩, size⟩
  · rw [walk, first]
  · rw [walkBuf, first]
  · rw [remain, first]
  · rw [remainInBuf, first]
    omega
  · rw [temp, first]
    omega

theorem comes_header (behind : List Byte) (int : rcvBufSize < 2 ^ 31)
    (header : HeaderAt rcvBufSize datagram p) :
    ∃ s, Comes rcvBufSize datagram behind s ∧ Cursor rcvBufSize datagram .needPreamble p s := by
  induction header with
  | first => exact ⟨_, .start, start_cursor⟩
  | skip before more inside other ih =>
    obtain ⟨s, comes, cursor⟩ := ih
    obtain ⟨t, calls, step, after⟩ := next_skip behind cursor more inside other
    exact ⟨t, comes.turn step, after⟩
  | entry before more inside preamble whole ih =>
    obtain ⟨s, comes, cursor⟩ := ih
    obtain ⟨t, toEntry, atEntry, known⟩ := next_preamble behind cursor (by omega) (by omega) preamble
    have size := known inside
    have limit := inFirst_le rcvBufSize datagram
    obtain ⟨t', past, after⟩ := next_entry behind atEntry (by omega) more (by rw [size]; exact whole)
    rw [size] at after
    exact ⟨t', (comes.turn toEntry).turn past, after⟩

theorem headers_of_bounds (int : rcvBufSize < 2 ^ 31)
    (bounds : StaysInBounds rcvBufSize datagram behind) : HeadersInBounds rcvBufSize datagram := by
  intro p header more
  obtain ⟨s, comes, cursor⟩ := comes_header behind int header
  have here := (header_inBounds behind cursor more).mp (bounds s comes)
  split
  · next few =>
    rw [if_pos few] at here
    exact here
  · next many =>
    rw [if_neg many] at here
    refine ⟨here.1, fun preamble => ⟨here.2 preamble, fun further cut => ?_⟩⟩
    have inside := here.2 preamble
    obtain ⟨t, toEntry, atEntry, known⟩ := next_preamble behind cursor (by omega) here.1 preamble
    have comes' := comes.turn toEntry
    rw [← known inside] at cut
    refine ⟨(entry_inBounds behind int atEntry further inside).mp (bounds t comes') cut, ?_⟩
    by_contra neither
    obtain ⟨t', past, _, outside⟩ := next_behind behind atEntry (by omega) (by omega) (by
      have limit := inFirst_le rcvBufSize datagram
      have first : inFirst rcvBufSize datagram = rcvBufSize := Nat.min_eq_right (by omega)
      omega)
    exact outside (bounds t' (comes'.turn past))

inductive Place (rcvBufSize : Nat) (datagram : List Byte) (s : SinkWalk) : Prop where
  | header {p : Nat} (header : HeaderAt rcvBufSize datagram p)
      (cursor : Cursor rcvBufSize datagram .needPreamble p s)
  | entry {p : Nat} (header : HeaderAt rcvBufSize datagram p)
      (more : p + 4 ≤ recvCnt rcvBufSize datagram) (inside : p + 8 ≤ rcvBufSize)
      (preamble : headerWord rcvBufSize datagram p = SINK_LOG_PREAMBLE)
      (cursor : Cursor rcvBufSize datagram .inLog (p + 8) s)
      (size : s.entrySize = headerSize rcvBufSize datagram p)
  | past (done : recvCnt rcvBufSize datagram ≤ s.walk)

theorem place_next (int : rcvBufSize < 2 ^ 31) (headers : HeadersInBounds rcvBufSize datagram)
    (place : Place rcvBufSize datagram s) {calls : List SinkCall}
    (some : s.next rcvBufSize datagram behind = some (t, calls)) : Place rcvBufSize datagram t := by
  have limit := inFirst_le rcvBufSize datagram
  cases place with
  | @header p header cursor =>
    by_cases more : p < recvCnt rcvBufSize datagram
    · have here := headers p header more
      split at here
      · next few =>
        obtain ⟨t', step, walk⟩ := next_crumbs behind cursor more few
        rw [next_lands some step]
        exact .past (by omega)
      · next many =>
        by_cases preamble : headerWord rcvBufSize datagram p = SINK_LOG_PREAMBLE
        · have inside := (here.2 preamble).1
          obtain ⟨t', step, cursor', known⟩ := next_preamble behind cursor (by omega) here.1 preamble
          rw [next_lands some step]
          exact .entry header (by omega) inside preamble cursor' (known inside)
        · obtain ⟨t', calls', step, cursor'⟩ := next_skip behind cursor (by omega) here.1 preamble
          rw [next_lands some step]
          exact .header (header.skip (by omega) here.1 preamble) cursor'
    · rw [next_ended (by rw [cursor.walk]; omega)] at some
      cases some
  | @entry p header more inside preamble cursor size =>
    by_cases further : p + 8 < recvCnt rcvBufSize datagram
    · by_cases whole : p + 8 + s.entrySize.toNat ≤ inFirst rcvBufSize datagram
      · obtain ⟨t', step, cursor'⟩ := next_entry behind cursor (by omega) further whole
        rw [next_lands some step]
        rw [size] at whole cursor'
        exact .header (header.entry further inside preamble whole) cursor'
      · have here := headers p header (by omega)
        rw [if_neg (by omega)] at here
        obtain ⟨_, short | atEnd⟩ := (here.2 preamble).2 further (by rw [← size]; omega)
        · obtain ⟨t', step, _, walk, _⟩ := next_cut behind cursor further (by
            have first : inFirst rcvBufSize datagram = _ := Nat.min_eq_left short
            omega) (by omega)
          rw [next_lands some step]
          refine .past ?_
          rw [walk, inFirst, Nat.min_eq_left short]
        · rw [atEnd] at cursor further whole
          have first : inFirst rcvBufSize datagram = _ := Nat.min_eq_right (Nat.le_of_lt further)
          obtain ⟨t', step, cursor', same⟩ := next_stuck behind cursor further (by omega)
          rw [next_lands some step]
          refine .entry header more inside preamble ?_ (same.trans size)
          rw [atEnd]
          exact cursor'
    · rw [next_ended (by rw [cursor.walk]; omega)] at some
      cases some
  | past done =>
    rw [next_ended done] at some
    cases some

theorem place_inBounds (behind : List Byte) (int : rcvBufSize < 2 ^ 31)
    (headers : HeadersInBounds rcvBufSize datagram) (place : Place rcvBufSize datagram s) :
    s.InBounds rcvBufSize datagram behind := by
  cases place with
  | @header p header cursor =>
    by_cases more : p < recvCnt rcvBufSize datagram
    · refine (header_inBounds behind cursor more).mpr ?_
      have here := headers p header more
      split at here
      · next few =>
        rw [if_pos few]
        exact here
      · next many =>
        rw [if_neg many]
        exact ⟨here.1, fun preamble => (here.2 preamble).1⟩
    · intro inLoop
      rw [cursor.walk] at inLoop
      omega
  | @entry p header more inside preamble cursor size =>
    by_cases further : p + 8 < recvCnt rcvBufSize datagram
    · refine (entry_inBounds behind int cursor further inside).mpr fun cut => ?_
      have here := headers p header (by omega)
      rw [if_neg (by omega)] at here
      rw [size] at cut
      exact ((here.2 preamble).2 further cut).1
    · intro inLoop
      rw [cursor.walk] at inLoop
      omega
  | past done =>
    intro inLoop
    omega

/-- The parser stays in bounds exactly when the headers of the datagram make it. -/
theorem stays_in_bounds_iff (rcvBufSize : Nat) (int : rcvBufSize < 2 ^ 31)
    (datagram behind : List Byte) :
    StaysInBounds rcvBufSize datagram behind ↔ HeadersInBounds rcvBufSize datagram := by
  constructor
  · exact headers_of_bounds int
  · intro headers s comes
    refine place_inBounds behind int headers ?_
    induction comes with
    | start => exact .header .first start_cursor
    | turn before some ih => exact place_next int headers ih some

def cutFrame : List Byte :=
  bytes32 SINK_LOG_PREAMBLE ++ (bytes32 70000 ++ List.replicate 65536 0)

theorem stays_in_bounds_iff_cut : StaysInBounds 131072 cutFrame [] ↔ HeadersInBounds 131072 cutFrame :=
  stays_in_bounds_iff 131072 (by decide) cutFrame []

theorem HeadersInBounds.cut (headers : HeadersInBounds rcvBufSize datagram)
    (header : HeaderAt rcvBufSize datagram p)
    (preamble : headerWord rcvBufSize datagram p = SINK_LOG_PREAMBLE)
    (more : p + 8 < recvCnt rcvBufSize datagram)
    (cut : inFirst rcvBufSize datagram < p + 8 + (headerSize rcvBufSize datagram p).toNat) :
    inFirst rcvBufSize datagram ≤ p + 8 + GREASE_MAX_MESSAGE_SIZE := by
  have here := headers p header (by omega)
  rw [if_neg (by omega)] at here
  exact ((here.2 preamble).2 more cut).1

theorem cutFrame_received : recvCnt 131072 cutFrame = 65544 ∧ inFirst 131072 cutFrame = 65544 := by
  have length : cutFrame.length = 65544 := by
    simp only [cutFrame, List.length_append, bytes32_length, List.length_replicate]
  simp only [inFirst, recvCnt, SINK_NBUFFERS, length]
  omega

/-- The part that has come is copied, and one byte of it behind temp_buffer_entry. -/
theorem cutFrame_overflows : ¬ StaysInBounds 131072 cutFrame [] := by
  intro bounds
  have int : 131072 < 2 ^ 31 := by decide
  have headers : HeadersInBounds 131072 cutFrame := @headers_of_bounds 131072 cutFrame [] int bounds
  obtain ⟨received, first⟩ := cutFrame_received
  have buffer : rawBuffer 131072 cutFrame 0 = bytes32 SINK_LOG_PREAMBLE ++ (bytes32 70000 ++
      (List.replicate 65536 0 ++ List.replicate (131072 - cutFrame.length) 0)) := by
    have whole : cutFrame.length ≤ 131072 := by
      simp only [cutFrame, List.length_append, bytes32_length, List.length_replicate]
      omega
    simp only [rawBuffer, Nat.zero_mul, List.drop_zero]
    rw [List.take_of_length_le whole]
    simp only [cutFrame, List.append_assoc]
  have word : headerWord 131072 cutFrame 0 = SINK_LOG_PREAMBLE := by
    rw [headerWord, buffer, word32_front]
  have size : headerSize 131072 cutFrame 0 = 70000 := by
    rw [headerSize, buffer, word32_skip32, word32_front]
  have copied := headers.cut .first word (by rw [received]; decide) (by rw [first, size]; decide)
  rw [first] at copied
  exact absurd copied (by decide)

/-! Whether the loop ends. -/

inductive EndsInBounds (rcvBufSize : Nat) (datagram behind : List Byte) : SinkWalk → Prop where
  | ended {s : SinkWalk} (none : s.next rcvBufSize datagram behind = none) :
      EndsInBounds rcvBufSize datagram behind s
  | turn {s t : SinkWalk} {calls : List SinkCall} (bounds : s.InBounds rcvBufSize datagram behind)
      (some : s.next rcvBufSize datagram behind = some (t, calls))
      (rest : EndsInBounds rcvBufSize datagram behind t) : EndsInBounds rcvBufSize datagram behind s

/-- Inside one buffer each header is behind the one before it. -/
theorem parses_from_header (behind : List Byte) (int : rcvBufSize < 2 ^ 31)
    (short : recvCnt rcvBufSize datagram ≤ rcvBufSize)
    (cursor : Cursor rcvBufSize datagram .needPreamble p s) :
    ∃ calls u, Parses rcvBufSize datagram behind s calls u := by
  have first : inFirst rcvBufSize datagram = recvCnt rcvBufSize datagram := Nat.min_eq_left short
  have finished : ∀ {s : SinkWalk}, recvCnt rcvBufSize datagram ≤ s.walk →
      ∃ calls u, Parses rcvBufSize datagram behind s calls u :=
    fun done => ⟨[], _, .ended (next_ended done)⟩
  induction left : recvCnt rcvBufSize datagram - p using Nat.strongRecOn generalizing p s with
  | ind left ih =>
    by_cases more : p < recvCnt rcvBufSize datagram
    · by_cases few : recvCnt rcvBufSize datagram < p + 4
      · obtain ⟨t, step, walk⟩ := next_crumbs behind cursor more few
        obtain ⟨calls, u, rest⟩ := finished (by rw [walk])
        exact ⟨_, u, .turn step rest⟩
      · by_cases preamble : headerWord rcvBufSize datagram p = SINK_LOG_PREAMBLE
        · obtain ⟨t, toEntry, atEntry, _⟩ := next_preamble behind cursor (by omega) (by omega) preamble
          by_cases further : p + 8 < recvCnt rcvBufSize datagram
          · by_cases whole : p + 8 + t.entrySize.toNat ≤ inFirst rcvBufSize datagram
            · obtain ⟨t', past, after⟩ := next_entry behind atEntry (by omega) further whole
              obtain ⟨calls, u, rest⟩ := ih _ (by omega) after rfl
              exact ⟨_, u, .turn toEntry (.turn past rest)⟩
            · obtain ⟨t', past, _, walk, _⟩ := next_cut behind atEntry further (by omega) (by omega)
              obtain ⟨calls, u, rest⟩ := finished (by rw [walk, first])
              exact ⟨_, u, .turn toEntry (.turn past rest)⟩
          · obtain ⟨calls, u, rest⟩ := finished (s := t) (by rw [atEntry.walk]; omega)
            exact ⟨_, u, .turn toEntry rest⟩
        · obtain ⟨t, calls, step, after⟩ := next_skip behind cursor (by omega) (by omega) preamble
          obtain ⟨others, u, rest⟩ := ih _ (by omega) after rfl
          exact ⟨_, u, .turn step rest⟩
    · exact finished (by rw [cursor.walk]; omega)

theorem ends_through (behind : List Byte) (int : rcvBufSize < 2 ^ 31)
    (header : HeaderAt rcvBufSize datagram p)
    (ends : ∀ s, Cursor rcvBufSize datagram .needPreamble p s →
      EndsInBounds rcvBufSize datagram behind s) :
    EndsInBounds rcvBufSize datagram behind (.start rcvBufSize datagram) := by
  induction header with
  | first => exact ends _ start_cursor
  | @skip p before more inside other ih =>
    refine ih fun s cursor => ?_
    obtain ⟨t, calls, step, after⟩ := next_skip behind cursor more inside other
    refine .turn ((header_inBounds behind cursor (by omega)).mpr ?_) step (ends t after)
    rw [if_neg (by omega)]
    exact ⟨inside, fun preamble => absurd preamble other⟩
  | @entry p before more inside preamble whole ih =>
    refine ih fun s cursor => ?_
    have limit := inFirst_le rcvBufSize datagram
    obtain ⟨t, toEntry, atEntry, known⟩ := next_preamble behind cursor (by omega) (by omega) preamble
    have size := known inside
    obtain ⟨t', past, after⟩ := next_entry behind atEntry (by omega) more (by rw [size]; exact whole)
    rw [size] at after
    refine .turn ((header_inBounds behind cursor (by omega)).mpr ?_) toEntry
      (.turn ((entry_inBounds behind int atEntry more inside).mpr fun cut => ?_) past (ends t' after))
    · rw [if_neg (by omega)]
      exact ⟨by omega, fun _ => inside⟩
    · rw [size] at cut
      omega

theorem inBounds_of_ended (none : s.next rcvBufSize datagram behind = none) :
    s.InBounds rcvBufSize datagram behind := by
  intro more s' stays
  rw [SinkWalk.next, if_pos more, stays] at none
  cases none

/-- Where a walk over a datagram that is longer than the buffer has stayed in
    bounds so far. -/
inductive Going (rcvBufSize : Nat) (datagram : List Byte) (s : SinkWalk) : Prop where
  | header {p : Nat} (header : HeaderAt rcvBufSize datagram p)
      (cursor : Cursor rcvBufSize datagram .needPreamble p s)
  | entry {p : Nat} (header : HeaderAt rcvBufSize datagram p) (inside : p + 8 ≤ rcvBufSize)
      (preamble : headerWord rcvBufSize datagram p = SINK_LOG_PREAMBLE)
      (cursor : Cursor rcvBufSize datagram .inLog (p + 8) s)
      (size : s.entrySize = headerSize rcvBufSize datagram p)

theorem header_of_end (int : rcvBufSize < 2 ^ 31) (long : rcvBufSize < recvCnt rcvBufSize datagram)
    (ends : EndsInBounds rcvBufSize datagram behind s) (going : Going rcvBufSize datagram s) :
    ∃ p, HeaderAt rcvBufSize datagram p ∧ recvCnt rcvBufSize datagram ≤ p := by
  have limit := inFirst_le rcvBufSize datagram
  have first : inFirst rcvBufSize datagram = rcvBufSize := Nat.min_eq_right (Nat.le_of_lt long)
  induction ends with
  | @ended s none =>
    cases going with
    | @header p header cursor =>
      refine ⟨p, header, ?_⟩
      by_contra more
      rw [cursor.next behind (by omega)] at none
      cases none
    | @entry p header inside preamble cursor size =>
      rw [cursor.next behind (by omega)] at none
      cases none
  | @turn s t calls bounds some rest ih =>
    cases going with
    | @header p header cursor =>
      by_cases more : p < recvCnt rcvBufSize datagram
      · have here := (header_inBounds behind cursor more).mp bounds
        split at here
        · omega
        · next many =>
          by_cases preamble : headerWord rcvBufSize datagram p = SINK_LOG_PREAMBLE
          · have inside := here.2 preamble
            obtain ⟨t', step, cursor', known⟩ := next_preamble behind cursor (by omega) here.1 preamble
            rw [next_lands some step] at ih
            exact ih (.entry header inside preamble cursor' (known inside))
          · obtain ⟨t', calls', step, cursor'⟩ := next_skip behind cursor (by omega) here.1 preamble
            rw [next_lands some step] at ih
            exact ih (.header (header.skip (by omega) here.1 preamble) cursor')
      · exact ⟨p, header, by omega⟩
    | @entry p header inside preamble cursor size =>
      by_cases whole : p + 8 + s.entrySize.toNat ≤ inFirst rcvBufSize datagram
      · obtain ⟨t', step, cursor'⟩ := next_entry behind cursor (by omega) (by omega) whole
        rw [next_lands some step] at ih
        rw [size] at whole cursor'
        exact ih (.header (header.entry (by omega) inside preamble whole) cursor')
      · by_cases atEnd : p + 8 = rcvBufSize
        · rw [atEnd] at cursor
          obtain ⟨t', step, cursor', same⟩ := next_stuck behind cursor long (by omega)
          rw [next_lands some step] at ih
          refine ih (.entry header inside preamble ?_ (same.trans size))
          rw [atEnd]
          exact cursor'
        · obtain ⟨t', step, walk, outside⟩ := next_behind behind cursor long (by omega) (by omega)
          rw [next_lands some step] at rest
          cases rest with
          | ended none => exact absurd (inBounds_of_ended none) outside
          | turn bounds' => exact absurd bounds' outside

/-- The loop ends on what fits into one buffer. A longer datagram takes it out of
    the buffer or into a circle, but for one whose last header in the buffer is
    none and ends behind the datagram. -/
theorem parser_ends_iff (rcvBufSize : Nat) (int : rcvBufSize < 2 ^ 31) (datagram behind : List Byte) :
    (recvCnt rcvBufSize datagram ≤ rcvBufSize →
      ∃ calls u, Parses rcvBufSize datagram behind (.start rcvBufSize datagram) calls u) ∧
    (rcvBufSize < recvCnt rcvBufSize datagram →
      (EndsInBounds rcvBufSize datagram behind (.start rcvBufSize datagram) ↔
        ∃ p, HeaderAt rcvBufSize datagram p ∧ recvCnt rcvBufSize datagram ≤ p)) := by
  constructor
  · intro short
    exact parses_from_header behind int short start_cursor
  · intro long
    constructor
    · intro ends
      exact header_of_end int long ends (.header .first start_cursor)
    · rintro ⟨p, header, past⟩
      refine ends_through behind int header fun s cursor => .ended (next_ended ?_)
      rw [cursor.walk]
      omega

/-- The frame in a buffer that holds it, and in one that holds its header only. -/
theorem parser_ends_iff_cut :
    (∃ calls u, Parses 131072 cutFrame [] (.start 131072 cutFrame) calls u) ∧
      (EndsInBounds 8 cutFrame [] (.start 8 cutFrame) ↔
        ∃ p, HeaderAt 8 cutFrame p ∧ recvCnt 8 cutFrame ≤ p) := by
  have length : cutFrame.length = 65544 := by
    simp only [cutFrame, List.length_append, bytes32_length, List.length_replicate]
  have small : 8 < recvCnt 8 cutFrame := by
    simp only [recvCnt, SINK_NBUFFERS, length]
    omega
  exact ⟨(parser_ends_iff 131072 (by decide) cutFrame []).1 (by rw [cutFrame_received.1]; decide),
    (parser_ends_iff 8 (by decide) cutFrame []).2 small⟩

theorem parses_comes {calls : List SinkCall} (comes : Comes rcvBufSize datagram behind s)
    (parses : Parses rcvBufSize datagram behind (.start rcvBufSize datagram) calls u) :
    ∃ others, Parses rcvBufSize datagram behind s others u := by
  induction comes with
  | start => exact ⟨calls, parses⟩
  | turn before some ih =>
    obtain ⟨others, rest⟩ := ih
    cases rest with
    | ended none =>
      rw [none] at some
      cases some
    | turn some' rest' =>
      rw [some] at some'
      obtain ⟨rfl, rfl⟩ := Prod.mk.inj (Option.some.inj some')
      exact ⟨_, rest'⟩

theorem circles {calls : List SinkCall} (long : rcvBufSize < recvCnt rcvBufSize datagram)
    (parses : Parses rcvBufSize datagram behind s calls u)
    (cursor : Cursor rcvBufSize datagram .inLog rcvBufSize s) : s.entrySize.toNat = 0 := by
  induction parses with
  | ended none =>
    rw [cursor.next behind long] at none
    cases none
  | turn some rest ih =>
    by_contra data
    obtain ⟨t, step, cursor', same⟩ := next_stuck behind cursor long (by omega)
    rw [step] at some
    obtain ⟨rfl, rfl⟩ := Prod.mk.inj (Option.some.inj some)
    have none := ih cursor'
    rw [same] at none
    exact data none

/-- A header that ends with the buffer is one the parser does not get past. -/
theorem never_ends (behind : List Byte) (int : rcvBufSize < 2 ^ 31)
    (long : rcvBufSize < recvCnt rcvBufSize datagram) (header : HeaderAt rcvBufSize datagram p)
    (atEnd : p + 8 = rcvBufSize) (preamble : headerWord rcvBufSize datagram p = SINK_LOG_PREAMBLE)
    (data : 0 < (headerSize rcvBufSize datagram p).toNat) :
    ¬ ∃ calls u, Parses rcvBufSize datagram behind (.start rcvBufSize datagram) calls u := by
  rintro ⟨calls, u, parses⟩
  obtain ⟨s, comes, cursor⟩ := comes_header behind int header
  obtain ⟨t, toEntry, atEntry, known⟩ := next_preamble behind cursor (by omega) (by omega) preamble
  obtain ⟨others, rest⟩ := parses_comes (comes.turn toEntry) parses
  rw [atEnd] at atEntry
  have none := circles long rest atEntry
  rw [known (by omega)] at none
  omega

def twoFrames : List Byte :=
  bytes32 SINK_LOG_PREAMBLE ++ (bytes32 131056 ++ (List.replicate 131056 0 ++
    (bytes32 SINK_LOG_PREAMBLE ++ (bytes32 1 ++ [0]))))

theorem word32_skip {block : List Byte} {width : Nat} (length : block.length = width)
    (rest : List Byte) (n : Nat) : word32 (block ++ rest) (n + width) = word32 rest n := by
  rw [word32, drop_block length, word32]

theorem twoFrames_buffer : rawBuffer 131072 twoFrames 0 = bytes32 SINK_LOG_PREAMBLE ++
    (bytes32 131056 ++ (List.replicate 131056 0 ++ (bytes32 SINK_LOG_PREAMBLE ++ bytes32 1))) := by
  have split : twoFrames = (bytes32 SINK_LOG_PREAMBLE ++ (bytes32 131056 ++
      (List.replicate 131056 0 ++ (bytes32 SINK_LOG_PREAMBLE ++ bytes32 1)))) ++ [0] := by
    simp only [twoFrames, List.append_assoc]
  have length : (bytes32 SINK_LOG_PREAMBLE ++ (bytes32 131056 ++
      (List.replicate 131056 0 ++ (bytes32 SINK_LOG_PREAMBLE ++ bytes32 1)))).length = 131072 := by
    simp only [List.length_append, bytes32_length, List.length_replicate]
  have received : (twoFrames.drop (0 * 131072)).take 131072 = bytes32 SINK_LOG_PREAMBLE ++
      (bytes32 131056 ++ (List.replicate 131056 0 ++ (bytes32 SINK_LOG_PREAMBLE ++ bytes32 1))) := by
    rw [Nat.zero_mul, List.drop_zero, split, List.take_left' length]
  simp only [rawBuffer, received, length, Nat.sub_self, List.replicate_zero, List.append_nil]

/-- The parser does not end on it. -/
theorem twoFrames_circle :
    ¬ ∃ calls u, Parses 131072 twoFrames [] (.start 131072 twoFrames) calls u := by
  have received : recvCnt 131072 twoFrames = 131073 := by
    simp only [recvCnt, twoFrames, List.length_append, bytes32_length, List.length_replicate,
      List.length_singleton, SINK_NBUFFERS]
    omega
  have word : headerWord 131072 twoFrames 0 = SINK_LOG_PREAMBLE := by
    rw [headerWord, twoFrames_buffer, word32_front]
  have size : headerSize 131072 twoFrames 0 = 131056 := by
    rw [headerSize, twoFrames_buffer, word32_skip32, word32_front]
  have second : HeaderAt 131072 twoFrames 131064 := by
    have after : HeaderAt 131072 twoFrames (0 + 8 + (headerSize 131072 twoFrames 0).toNat) :=
      .entry .first (by rw [received]; decide) (by decide) word
        (by rw [size, inFirst, received]; decide)
    rw [size] at after
    exact after
  have body : (List.replicate 131056 (0 : Byte)).length = 131056 := List.length_replicate
  have word' : headerWord 131072 twoFrames 131064 = SINK_LOG_PREAMBLE := by
    have spot : 131064 = 0 + 131056 + 4 + 4 := rfl
    rw [headerWord, twoFrames_buffer, spot, word32_skip32, word32_skip32, word32_skip body,
      word32_front]
  have size' : headerSize 131072 twoFrames 131064 = 1 := by
    have spot : 131064 + 4 = 0 + 4 + 131056 + 4 + 4 := rfl
    rw [headerSize, twoFrames_buffer, spot, word32_skip32, word32_skip32, word32_skip body,
      word32_skip32, ← List.append_nil (bytes32 1), word32_front]
  exact never_ends [] (by decide) (by rw [received]; decide) second rfl word' (by rw [size']; decide)

end GreaseLog
