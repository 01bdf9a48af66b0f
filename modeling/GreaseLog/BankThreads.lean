import GreaseLog.BankSafety
import GreaseLog.Lib.Totals

/- The bank of one target under the interleaving of the logger thread and the
   node thread. rotate, flush, returnBuffer, the delivery of a callback and
   finalizeV8Callback are cut into steps of at most one queue operation each, and
   what a thread has in hand between two steps is part of the state. -/
namespace GreaseLog

/-- Where a thread is in rotate(), which holds writeMutex all along. -/
inductive Rotating where
  | idle
  /-- There is data; the next buffer is to be taken. -/
  | checked
  | took (next : BufId)
  /-- currentBuffer is in writeOutBuffers and is to be replaced. -/
  | swap (next : BufId)
  | giveBack (next : BufId)
  | clear
  deriving DecidableEq

inductive Task where
  | flush (nocallbacks : Bool)
  | flushSync (nocallbacks : Bool)
  | returnBuffer (sync nocallback : Bool)
  /-- v8LogCallbacks.addMvIfRoom -/
  | queue
  | clear
  /-- availBuffers.add, which waits for room. -/
  | add
  /-- _doV8Callback, up to the clear() of finalizeV8Callback. -/
  | callback
  /-- availBuffers.addIfRoom in finalizeV8Callback -/
  | finalize
  /-- isEmpty() waits for the mutex of the buffer, which flushSync of a tty holds here. -/
  | stuck
  deriving DecidableEq

/-- The branches that give up a buffer or data with an error message, and an
    entry of v8LogCallbacks whose target has no callback. -/
inductive BankFailure where
  | writeOutFull
  | losingBuffer
  | availFull
  | noCallback
  deriving DecidableEq

structure BankThreads where
  t : LogTarget
  o : Owner
  rotating : Rotating := .idle
  hands : List (BufId × Task) := []
  /-- The pointer logCallback, which setCallback sets after logCallbackSet. -/
  logCallback : Bool := false
  settingCallback : Bool := false
  failures : List BankFailure := []

inductive ThreadAction where
  | beginRotate
  | rotateOn
  | copyIn (header s footer : List Byte)
  /-- writeOutBuffers.remove, in flushAll or in flushAllSync. -/
  | takeOut (sync nocallbacks : Bool)
  /-- The next step with the n-th buffer in hand. -/
  | work (n : Nat)
  /-- The callback of the n-th write in flight; writes may end in any order. -/
  | writeDone (n : Nat)
  /-- v8LogCallbacks.removeMv, on the node thread. -/
  | deliver
  | setCallbackFlag
  | setCallbackPointer
  /-- What the other targets and threads make of the owner. -/
  | others (o : Owner)

namespace BankThreads

def rotateOn (s : BankThreads) : BankThreads :=
  match s.rotating with
  | .idle => s
  | .checked =>
    match s.t.availBuffers.remove with
    | some (next, avail) => { s with t := { s.t with availBuffers := avail }, rotating := .took next }
    | none => { s with rotating := .clear }
  | .took next =>
    let added := s.t.writeOutBuffers.addIfRoom s.t.currentBuffer
    if added.2 then { s with t := { s.t with writeOutBuffers := added.1 }, rotating := .swap next }
    else { s with rotating := .giveBack next, failures := s.failures ++ [.writeOutFull] }
  | .swap next => { s with t := { s.t with currentBuffer := next }, rotating := .idle }
  | .giveBack next =>
    let added := s.t.availBuffers.addIfRoom next
    { s with
      t := { s.t with availBuffers := added.1 }
      rotating := .clear
      failures := if added.2 then s.failures else s.failures ++ [.losingBuffer] }
  | .clear => { s with t := s.t.clearBuffer s.t.currentBuffer, rotating := .idle }

def setHand (s : BankThreads) (n : Nat) (b : BufId) (task : Task) : BankThreads :=
  { s with hands := s.hands.set n (b, task) }

def dropHand (s : BankThreads) (n : Nat) : BankThreads := { s with hands := s.hands.eraseIdx n }

/-- The counters of the owner move with the queue operation they belong to. -/
def workOn (s : BankThreads) (n : Nat) (b : BufId) : Task → BankThreads
  | .flush nocallbacks =>
    match s.t.kind with
    | .callback => s.setHand n b (.returnBuffer false nocallbacks)
    | .tty | .file =>
      { s.dropHand n with t := { s.t with inflight := s.t.inflight ++ [.buffer b nocallbacks] } }
  | .flushSync nocallbacks =>
    match s.t.kind with
    | .tty => s.setHand n b .stuck
    | .file | .callback => s.setHand n b (.returnBuffer true nocallbacks)
  | .returnBuffer sync nocallback =>
    let isempty := (s.t.buffers b).isEmpty
    { s.setHand n b
        (if !nocallback && s.t.logCallbackSet && !isempty then if sync then .callback else .queue
         else .clear) with
      o := if isempty then s.o else s.o.unrefGreaseInGrease }
  | .queue =>
    let added := s.o.addCallback (.buffer s.t.myId b)
    if added.2 then { s.dropHand n with o := added.1.refFromV8 } else s.setHand n b .clear
  | .clear => { s.setHand n b .add with t := s.t.clearBuffer b }
  | .add => if s.t.availBuffers.HasRoom then { s.dropHand n with t := s.t.addAvail b } else s
  | .callback => { s.setHand n b .finalize with t := s.t.clearBuffer b }
  | .finalize =>
    { s.dropHand n with
      t := s.t.addAvail b
      failures :=
        if (s.t.availBuffers.addIfRoom b).2 then s.failures else s.failures ++ [.availFull] }
  | .stuck => s

def writeDone (s : BankThreads) (n : Nat) : BankThreads :=
  let t := { s.t with inflight := s.t.inflight.eraseIdx n }
  match s.t.inflight[n]? with
  | none => s
  | some (.buffer b nocallback) =>
    { s with t := t, hands := s.hands ++ [(b, .returnBuffer false nocallback)] }
  | some (.overflow entry nocallback) => { s with t := t, o := s.t.returnOverflow s.o entry nocallback }

/-- An entry of another target is delivered there. -/
def deliver (s : BankThreads) : BankThreads :=
  match s.o.v8LogCallbacks.remove with
  | none => s
  | some (d, rest) =>
    let s := { s with o := { s.o with v8LogCallbacks := rest, needV8 := s.o.needV8 - 1 } }
    match d.bufOf s.t.myId with
    | none => s
    | some b =>
      if s.logCallback then { s with hands := s.hands ++ [(b, .callback)] }
      else { s with failures := s.failures ++ [.noCallback] }

def apply (s : BankThreads) : ThreadAction → BankThreads
  | .beginRotate => if 0 < s.t.current.data.length then { s with rotating := .checked } else s
  | .rotateOn => s.rotateOn
  | .copyIn header text footer => { s with t := s.t.store header text footer }
  | .takeOut sync nocallbacks =>
    match s.t.writeOutBuffers.remove with
    | none => s
    | some (b, rest) =>
      { s with
        t := { s.t with writeOutBuffers := rest }
        hands := s.hands ++ [(b, if sync then .flushSync nocallbacks else .flush nocallbacks)] }
  | .work n =>
    match s.hands[n]? with
    | none => s
    | some (b, task) => s.workOn n b task
  | .writeDone n => s.writeDone n
  | .deliver => s.deliver
  | .setCallbackFlag => { s with t := { s.t with logCallbackSet := true }, settingCallback := true }
  | .setCallbackPointer => { s with logCallback := true, settingCallback := false }
  | .others o => { s with o := o }

/-- writeMutex keeps rotate() and the copies apart, and the node thread does one
    thing at a time; nobody else touches the callbacks of this target. -/
def Allowed (s : BankThreads) : ThreadAction → Prop
  | .beginRotate | .copyIn _ _ _ => s.rotating = .idle
  | .deliver | .setCallbackFlag => s.settingCallback = false
  | .setCallbackPointer => s.settingCallback = true
  | .others o => o.pending s.t.myId = s.o.pending s.t.myId
  | _ => True

instance (s : BankThreads) : ∀ a, Decidable (s.Allowed a)
  | .beginRotate | .copyIn _ _ _ => inferInstanceAs (Decidable (s.rotating = .idle))
  | .deliver | .setCallbackFlag => inferInstanceAs (Decidable (s.settingCallback = false))
  | .setCallbackPointer => inferInstanceAs (Decidable (s.settingCallback = true))
  | .others o => inferInstanceAs (Decidable (o.pending s.t.myId = s.o.pending s.t.myId))
  | .rotateOn | .takeOut _ _ | .work _ | .writeDone _ => inferInstanceAs (Decidable True)

def Step (s : BankThreads) (a : ThreadAction) (s' : BankThreads) : Prop :=
  s.Allowed a ∧ s' = s.apply a

structure Start (s : BankThreads) : Prop where
  new : ∃ kind bufferSize id delim formats, s.t = { LogTarget.new kind bufferSize id delim with
    formats := formats }
  noCallbacks : s.o.pending s.t.myId = []
  idle : s.rotating = .idle ∧ s.hands = [] ∧ s.failures = []

def currentOnly (s : BankThreads) : List BufId :=
  match s.rotating with
  | .swap _ => []
  | _ => [s.t.currentBuffer]

def rotatingHand (s : BankThreads) : List BufId :=
  match s.rotating with
  | .took next | .swap next | .giveBack next => [next]
  | .idle | .checked | .clear => []

def handed (s : BankThreads) : List BufId := s.hands.map Prod.fst

def places (s : BankThreads) : List BufId :=
  s.currentOnly ++ s.t.availBuffers.items ++ s.t.writeOutBuffers.items ++
    s.t.inflight.filterMap WriteReq.buf? ++ s.o.pending s.t.myId ++ s.handed ++ s.rotatingHand

structure Sound (s : BankThreads) : Prop where
  located : s.places.Perm (List.finRange NUM_BANKS)
  flagged : s.o.pending s.t.myId ≠ [] ∨ (∃ b, (b, Task.queue) ∈ s.hands) →
    s.t.logCallbackSet = true
  pointed : s.t.logCallbackSet = true → s.logCallback = true ∨ s.settingCallback = true
  noFailure : s.failures = []
  noGiveBack : ∀ next, s.rotating ≠ .giveBack next

variable {s : BankThreads}

theorem Sound.count (sound : s.Sound) (b : BufId) : s.places.count b = 1 := by
  rw [sound.located.count_eq]
  exact List.count_eq_one_of_mem (List.nodup_finRange _) (List.mem_finRange b)

theorem located_of_count (all : ∀ b, s.places.count b = 1) :
    s.places.Perm (List.finRange NUM_BANKS) := by
  rw [List.perm_iff_count]
  intro b
  rw [all b, List.count_eq_one_of_mem (List.nodup_finRange _) (List.mem_finRange b)]

theorem Sound.total (sound : s.Sound) : s.places.length = NUM_BANKS := by
  rw [sound.located.length_eq, List.length_finRange]

theorem Sound.writeOut_room (sound : s.Sound) {next : BufId} (took : s.rotating = .took next) :
    s.t.writeOutBuffers.HasRoom := by
  have total := sound.total
  simp only [places, currentOnly, rotatingHand, took, List.length_append, List.length_cons,
    List.length_nil] at total
  unfold BoundedQueue.HasRoom
  omega

theorem Sound.avail_room (sound : s.Sound) {b : BufId} {task : Task} (hand : (b, task) ∈ s.hands) :
    s.t.availBuffers.HasRoom := by
  have total := sound.total
  have some : 0 < s.handed.length := by
    rw [handed, List.length_map]
    exact List.length_pos_of_mem hand
  have current : 1 ≤ s.currentOnly.length + s.rotatingHand.length := by
    unfold currentOnly rotatingHand
    cases s.rotating <;> simp
  simp only [places, List.length_append] at total
  unfold BoundedQueue.HasRoom
  omega

theorem handed_set {n : Nat} {b : BufId} {task : Task} (hand : s.hands[n]? = some (b, task))
    (task' : Task) : (s.hands.set n (b, task')).map Prod.fst = s.handed := by
  obtain ⟨bound, get⟩ := List.getElem?_eq_some_iff.mp hand
  rw [List.map_set, handed]
  apply List.ext_getElem
  · simp
  · intro i low high
    rw [List.getElem_set]
    split
    · next same =>
      subst same
      simp [get]
    · rfl

theorem handed_drop {n : Nat} {b : BufId} {task : Task} (hand : s.hands[n]? = some (b, task))
    (c : BufId) :
    s.handed.count c = ((s.hands.eraseIdx n).map Prod.fst).count c + [b].count c := by
  have perm := ((Totals.perm_eraseIdx hand).map Prod.fst).count_eq c
  simp only [List.map_cons, List.count_cons, List.count_nil] at perm ⊢
  rw [handed, perm]
  omega

theorem Sound.moved {s' : BankThreads} (sound : s.Sound)
    (counts : ∀ b, s'.places.count b = s.places.count b)
    (pending : s'.o.pending s'.t.myId ≠ [] → s.t.logCallbackSet = true)
    (queue : ∀ b, (b, Task.queue) ∈ s'.hands → s.t.logCallbackSet = true)
    (flag : s'.t.logCallbackSet = s.t.logCallbackSet) (pointer : s'.logCallback = s.logCallback)
    (setting : s'.settingCallback = s.settingCallback) (failures : s'.failures = s.failures)
    (kept : ∀ next, s'.rotating ≠ .giveBack next) : s'.Sound where
  located := located_of_count fun b => (counts b).trans (sound.count b)
  flagged := by
    rw [flag]
    rintro (waiting | ⟨b, hand⟩)
    · exact pending waiting
    · exact queue b hand
  pointed := by
    rw [flag, pointer, setting]
    exact sound.pointed
  noFailure := failures.trans sound.noFailure
  noGiveBack := kept

theorem Sound.pending (sound : s.Sound) (waiting : s.o.pending s.t.myId ≠ []) :
    s.t.logCallbackSet = true :=
  sound.flagged (Or.inl waiting)

theorem Sound.queued (sound : s.Sound) (b : BufId) (hand : (b, Task.queue) ∈ s.hands) :
    s.t.logCallbackSet = true :=
  sound.flagged (Or.inr ⟨b, hand⟩)

theorem rotateOn_sound (sound : s.Sound) : s.rotateOn.Sound := by
  unfold rotateOn
  split
  · exact sound
  · next checked =>
    split
    · next next avail removed =>
      have items := BoundedQueue.remove_some removed
      refine sound.moved (fun b => ?_) sound.pending sound.queued rfl rfl rfl rfl (by simp)
      simp only [places, currentOnly, rotatingHand, handed, checked, items, List.count_append,
        List.count_cons, List.count_nil]
      omega
    · refine sound.moved (fun b => ?_) sound.pending sound.queued rfl rfl rfl rfl (by simp)
      simp only [places, currentOnly, rotatingHand, handed, checked]
  · next next took =>
    obtain ⟨added, items⟩ := BoundedQueue.addIfRoom_room s.t.currentBuffer (sound.writeOut_room took)
    simp only [added, ↓reduceIte]
    refine sound.moved (fun b => ?_) sound.pending sound.queued rfl rfl rfl rfl (by simp)
    simp only [places, currentOnly, rotatingHand, handed, took, items, List.count_append,
      List.count_cons, List.count_nil]
    omega
  · next next swap =>
    refine sound.moved (fun b => ?_) sound.pending sound.queued rfl rfl rfl rfl (by simp)
    simp only [places, currentOnly, rotatingHand, handed, swap, List.count_append,
      List.count_cons, List.count_nil]
    omega
  · next next back => exact absurd back (sound.noGiveBack next)
  · next clear =>
    refine sound.moved (fun b => ?_) sound.pending sound.queued rfl rfl rfl rfl (by simp)
    simp only [places, currentOnly, rotatingHand, handed, clear, LogTarget.clearBuffer,
      LogTarget.setBuffer]

theorem queue_of_set {n : Nat} {b c : BufId} {task : Task} (sound : s.Sound)
    (other : task = .queue → s.t.logCallbackSet = true)
    (mem : (c, Task.queue) ∈ s.hands.set n (b, task)) : s.t.logCallbackSet = true := by
  rcases List.mem_or_eq_of_mem_set mem with before | same
  · exact sound.queued c before
  · exact other (Prod.mk.inj same).2.symm

theorem queue_of_drop {n : Nat} {c : BufId} (sound : s.Sound)
    (mem : (c, Task.queue) ∈ s.hands.eraseIdx n) : s.t.logCallbackSet = true :=
  sound.queued c (List.mem_of_mem_eraseIdx mem)

theorem Sound.setHand {n : Nat} {b : BufId} {task task' : Task} (sound : s.Sound)
    (hand : s.hands[n]? = some (b, task))
    (flagged : task' = .queue → s.t.logCallbackSet = true) : (s.setHand n b task').Sound := by
  refine sound.moved (fun c => ?_) sound.pending (fun c => queue_of_set sound flagged) rfl rfl rfl
    rfl sound.noGiveBack
  simp only [places, currentOnly, rotatingHand, handed, BankThreads.setHand,
    handed_set hand task']

theorem Sound.clearBuffer (sound : s.Sound) (b : BufId) :
    ({ s with t := s.t.clearBuffer b } : BankThreads).Sound :=
  sound.moved (fun _ => rfl) sound.pending sound.queued rfl rfl rfl rfl sound.noGiveBack

theorem Sound.submit {n : Nat} {b : BufId} {task : Task} (sound : s.Sound)
    (hand : s.hands[n]? = some (b, task)) (nocallbacks : Bool) :
    ({ s.dropHand n with
      t := { s.t with inflight := s.t.inflight ++ [.buffer b nocallbacks] } } : BankThreads).Sound := by
  refine sound.moved (fun c => ?_) sound.pending (fun c => queue_of_drop sound) rfl rfl rfl rfl
    sound.noGiveBack
  have count := handed_drop hand c
  simp only [places, currentOnly, rotatingHand, handed, dropHand, List.filterMap_append,
    List.filterMap_cons, List.filterMap_nil, WriteReq.buf?, List.count_append,
    List.count_cons, List.count_nil] at count ⊢
  omega

theorem Sound.addAvail {n : Nat} {b : BufId} {task : Task} (sound : s.Sound)
    (hand : s.hands[n]? = some (b, task)) :
    ({ s.dropHand n with t := s.t.addAvail b } : BankThreads).Sound := by
  obtain ⟨_, items⟩ := BoundedQueue.addIfRoom_room b (sound.avail_room (List.mem_of_getElem? hand))
  refine sound.moved (fun c => ?_) sound.pending (fun c => queue_of_drop sound) rfl rfl rfl
    rfl sound.noGiveBack
  have count := handed_drop hand c
  simp only [places, currentOnly, rotatingHand, handed, dropHand, LogTarget.addAvail, items,
    List.count_append, List.count_cons, List.count_nil] at count ⊢
  omega

theorem Sound.queueOn {n : Nat} {b : BufId} (sound : s.Sound)
    (hand : s.hands[n]? = some (b, .queue)) : (s.workOn n b .queue).Sound := by
  have flag := sound.queued b (List.mem_of_getElem? hand)
  simp only [workOn]
  rcases BoundedQueue.addIfRoom_cases s.o.v8LogCallbacks (.buffer s.t.myId b) with
    ⟨_, added, items⟩ | ⟨_, full⟩
  · rw [if_pos (by exact added)]
    refine sound.moved (fun c => ?_) (fun _ => flag) (fun c => queue_of_drop sound) rfl rfl rfl
      rfl sound.noGiveBack
    have count := handed_drop hand c
    have pended : ((s.o.addCallback (.buffer s.t.myId b)).1.refFromV8).pending s.t.myId =
        s.o.pending s.t.myId ++ [b] := by
      simp only [Owner.pending, Owner.addCallback, Owner.refFromV8, items, List.filterMap_append]
      simp [WriteCBData.bufOf]
    simp only [places, currentOnly, rotatingHand, handed, dropHand, pended, List.count_append,
      List.count_cons, List.count_nil] at count ⊢
    omega
  · have refused : (s.o.addCallback (.buffer s.t.myId b)).2 = false := by
      simp [Owner.addCallback, full]
    rw [if_neg (by simp [refused])]
    exact sound.setHand hand (by simp)

theorem Sound.returnOn {n : Nat} {b : BufId} {sync nocallback : Bool} (sound : s.Sound)
    (hand : s.hands[n]? = some (b, .returnBuffer sync nocallback)) :
    (s.workOn n b (.returnBuffer sync nocallback)).Sound := by
  have owner : (if (s.t.buffers b).isEmpty then s.o else s.o.unrefGreaseInGrease).pending s.t.myId =
      s.o.pending s.t.myId := by
    split <;> rfl
  have next : (s.setHand n b
      (if !nocallback && s.t.logCallbackSet && !(s.t.buffers b).isEmpty then
        if sync then .callback else .queue
      else .clear)).Sound := by
    refine sound.setHand hand fun queued => ?_
    split at queued
    · next wanted =>
      simp only [Bool.and_eq_true] at wanted
      exact wanted.1.2
    · simp at queued
  refine next.moved (fun c => ?_) (fun h => sound.pending (owner ▸ h)) next.queued rfl rfl rfl rfl
    sound.noGiveBack
  simp only [workOn, places, currentOnly, rotatingHand, handed, BankThreads.setHand, owner]

theorem workOn_sound {n : Nat} {b : BufId} {task : Task} (sound : s.Sound)
    (hand : s.hands[n]? = some (b, task)) : (s.workOn n b task).Sound := by
  have room := sound.avail_room (List.mem_of_getElem? hand)
  cases task with
  | flush nocallbacks =>
    cases kind : s.t.kind with
    | callback =>
      have returning : (s.setHand n b (.returnBuffer false nocallbacks)).Sound :=
        sound.setHand hand (by simp)
      simpa only [workOn, kind] using returning
    | tty => simpa only [workOn, kind] using sound.submit hand nocallbacks
    | file => simpa only [workOn, kind] using sound.submit hand nocallbacks
  | flushSync nocallbacks =>
    cases kind : s.t.kind with
    | tty =>
      have waiting : (s.setHand n b .stuck).Sound := sound.setHand hand (by simp)
      simpa only [workOn, kind] using waiting
    | file =>
      have returning : (s.setHand n b (.returnBuffer true nocallbacks)).Sound :=
        sound.setHand hand (by simp)
      simpa only [workOn, kind] using returning
    | callback =>
      have returning : (s.setHand n b (.returnBuffer true nocallbacks)).Sound :=
        sound.setHand hand (by simp)
      simpa only [workOn, kind] using returning
  | returnBuffer sync nocallback => exact sound.returnOn hand
  | queue => exact sound.queueOn hand
  | clear =>
    have next : (s.setHand n b .add).Sound := sound.setHand hand (by simp)
    exact next.clearBuffer b
  | add =>
    simp only [workOn, room, ↓reduceIte]
    exact sound.addAvail hand
  | callback =>
    have next : (s.setHand n b .finalize).Sound := sound.setHand hand (by simp)
    exact next.clearBuffer b
  | finalize =>
    simp only [workOn, (BoundedQueue.addIfRoom_room b room).1, ↓reduceIte]
    exact sound.addAvail hand
  | stuck => exact sound

theorem writeDone_sound (sound : s.Sound) (n : Nat) : (s.writeDone n).Sound := by
  have fewer : ∀ w, s.t.inflight[n]? = some w → ∀ c,
      (s.t.inflight.filterMap WriteReq.buf?).count c =
        ((s.t.inflight.eraseIdx n).filterMap WriteReq.buf?).count c + (WriteReq.buf? w).toList.count c := by
    intro w found c
    rw [inflight_count (Totals.perm_eraseIdx found), Nat.add_comm]
  unfold writeDone
  split
  · exact sound
  · next b nocallback found =>
    refine sound.moved (fun c => ?_) sound.pending (fun c mem => ?_) rfl rfl rfl rfl sound.noGiveBack
    · have count := fewer _ found c
      simp only [places, currentOnly, rotatingHand, handed, WriteReq.buf?, List.map_append,
        List.map_cons, List.map_nil, Option.toList_some, List.count_append, List.count_cons,
        List.count_nil] at count ⊢
      omega
    · simp only [List.mem_append, List.mem_singleton, Prod.mk.injEq, reduceCtorEq, and_false,
        or_false] at mem
      exact sound.queued c mem
  · next entry nocallback found =>
    have owner := LogTarget.returnOverflow_pending s.t s.o entry nocallback s.t.myId
    refine sound.moved (fun c => ?_) (fun h => sound.pending (owner ▸ h))
      sound.queued rfl rfl rfl rfl sound.noGiveBack
    have count := fewer _ found c
    simp only [WriteReq.buf?, Option.toList_none, List.count_nil, Nat.add_zero] at count
    simp only [places, currentOnly, rotatingHand, handed, owner, List.count_append, count]

theorem deliver_sound (sound : s.Sound) (free : s.settingCallback = false) : s.deliver.Sound := by
  unfold deliver
  split
  · exact sound
  · next d rest removed =>
    have items := BoundedQueue.remove_some removed
    have before : s.o.pending s.t.myId =
        (d.bufOf s.t.myId).toList ++ rest.items.filterMap (WriteCBData.bufOf s.t.myId) :=
      Owner.pending_next { s.o with v8LogCallbacks := rest } s.t.myId items
    have left : rest.items.filterMap (WriteCBData.bufOf s.t.myId) ≠ [] → s.t.logCallbackSet = true := by
      intro some
      exact sound.pending (by rw [before]; simp [some])
    simp only
    split
    · next others =>
      refine sound.moved (fun c => ?_) left sound.queued rfl rfl rfl rfl sound.noGiveBack
      rw [others, Option.toList_none, List.nil_append] at before
      have after : ({ s.o with v8LogCallbacks := rest, needV8 := s.o.needV8 - 1 } : Owner).pending
          s.t.myId = s.o.pending s.t.myId := before.symm
      simp only [places, currentOnly, rotatingHand, handed, after]
    · next b ours =>
      rw [ours, Option.toList_some] at before
      have set : s.logCallback = true := by
        rcases sound.pointed (sound.pending (by rw [before]; simp)) with h | h
        · exact h
        · rw [free] at h
          cases h
      rw [if_pos set]
      refine sound.moved (fun c => ?_) left (fun c mem => ?_) rfl rfl rfl rfl sound.noGiveBack
      · have after : ({ s.o with v8LogCallbacks := rest, needV8 := s.o.needV8 - 1 } : Owner).pending
            s.t.myId = rest.items.filterMap (WriteCBData.bufOf s.t.myId) := rfl
        simp only [places, currentOnly, rotatingHand, handed, before, after, List.map_append,
          List.map_cons, List.map_nil, List.count_append, List.count_cons, List.count_nil]
        omega
      · simp only [List.mem_append, List.mem_singleton, Prod.mk.injEq, reduceCtorEq, and_false,
          or_false] at mem
        exact sound.queued c mem

theorem apply_sound {a : ThreadAction} (sound : s.Sound) (allowed : s.Allowed a) :
    (s.apply a).Sound := by
  cases a with
  | beginRotate =>
    have idle : s.rotating = .idle := allowed
    simp only [apply]
    split
    · refine sound.moved (fun b => ?_) sound.pending sound.queued rfl rfl rfl rfl (by simp)
      simp only [places, currentOnly, rotatingHand, handed, idle]
    · exact sound
  | rotateOn => exact rotateOn_sound sound
  | copyIn header text footer =>
    refine sound.moved (fun b => rfl) sound.pending sound.queued rfl rfl rfl rfl sound.noGiveBack
  | takeOut sync nocallbacks =>
    simp only [apply]
    split
    · exact sound
    · next b rest removed =>
      have items := BoundedQueue.remove_some removed
      refine sound.moved (fun c => ?_) sound.pending (fun c mem => ?_) rfl rfl rfl rfl sound.noGiveBack
      · simp only [places, currentOnly, rotatingHand, handed, items, List.map_append, List.map_cons,
          List.map_nil, List.count_append, List.count_cons, List.count_nil]
        omega
      · rcases List.mem_append.mp mem with before | new
        · exact sound.queued c before
        · cases sync <;> simp at new
  | work n =>
    simp only [apply]
    split
    · exact sound
    · next b task hand => exact workOn_sound sound hand
  | writeDone n => exact writeDone_sound sound n
  | deliver => exact deliver_sound sound allowed
  | setCallbackFlag =>
    exact ⟨sound.located, fun _ => rfl, fun _ => Or.inr rfl, sound.noFailure, sound.noGiveBack⟩
  | setCallbackPointer =>
    exact ⟨sound.located, sound.flagged, fun _ => Or.inl rfl, sound.noFailure, sound.noGiveBack⟩
  | others o =>
    have same : o.pending s.t.myId = s.o.pending s.t.myId := allowed
    refine sound.moved (fun b => ?_) (fun h => sound.pending (same ▸ h)) sound.queued rfl rfl rfl rfl
      sound.noGiveBack
    simp only [apply, places, currentOnly, rotatingHand, handed, same]

theorem start_sound (start : s.Start) : s.Sound := by
  obtain ⟨⟨kind, bufferSize, id, delim, formats, new⟩, none, idle, hands, failures⟩ := start
  have off : s.t.logCallbackSet = false := by rw [new]; rfl
  constructor
  · have all : s.places = List.finRange NUM_BANKS := by
      simp only [places, currentOnly, rotatingHand, handed, idle, hands, none]
      rw [new]
      rfl
    rw [all]
  · rintro (waiting | ⟨b, hand⟩)
    · exact absurd none waiting
    · rw [hands] at hand
      cases hand
  · intro set
    rw [off] at set
    cases set
  · exact failures
  · simp [idle]

theorem run_sound {start : BankThreads} (fresh : start.Start) {actions : List ThreadAction}
    (run : Runs.Run Step start actions s) : s.Sound := by
  refine Runs.run_invariant Sound (start_sound fresh) ?_ run
  rintro s a _ sound ⟨allowed, rfl⟩
  exact apply_sound sound allowed

/-- The buffers are always partitioned among their places and the hands of the
    threads, and no queue operation of the two threads is ever refused or made to
    wait but the one on v8LogCallbacks. -/
theorem bank_conserved {start : BankThreads} (fresh : start.Start) {actions : List ThreadAction}
    (run : Runs.Run Step start actions s) :
    s.places.Perm (List.finRange NUM_BANKS) ∧ s.failures = [] ∧
      (∀ next, s.rotating ≠ .giveBack next) ∧
      (∀ next, s.rotating = .took next → s.t.writeOutBuffers.HasRoom) ∧
      ∀ b, (b, Task.add) ∈ s.hands ∨ (b, Task.finalize) ∈ s.hands → s.t.availBuffers.HasRoom := by
  have sound := run_sound fresh run
  refine ⟨sound.located, sound.noFailure, sound.noGiveBack, fun next => sound.writeOut_room, ?_⟩
  rintro b (hand | hand)
  · exact sound.avail_room hand
  · exact sound.avail_room hand

theorem bank_conserved_line :
    let start : BankThreads := { t := LogTarget.new .file 4096 1 [10], o := {} }
    let s := [.setCallbackFlag, .setCallbackPointer, .copyIn [] [97] [], .beginRotate, .rotateOn,
      .rotateOn, .rotateOn, .takeOut false false, .work 0, .writeDone 0, .work 0, .work 0,
      .deliver, .work 0].foldl apply start
    s.places.Perm (List.finRange NUM_BANKS) ∧ s.hands = [(0, Task.finalize)] ∧
      s.t.availBuffers.HasRoom := by
  intro start s
  have fresh : start.Start := ⟨⟨.file, 4096, 1, [10], {}, rfl⟩, rfl, rfl, rfl, rfl⟩
  have run : Runs.Run Step start _ s := Runs.run_checked (fun _ _ allowed => ⟨allowed, rfl⟩)
    (by decide +kernel)
  have hand : s.hands = [(0, Task.finalize)] := by decide +kernel
  have conserved := bank_conserved fresh run
  exact ⟨conserved.1, hand, conserved.2.2.2.2 0 (Or.inr (by simp [hand]))⟩

/-! With nobody else between its steps, each function of the target is a run of them. -/

def quiet (s : BankState) (logCallback : Bool) : BankThreads :=
  { t := s.t, o := s.o, logCallback := logCallback }

variable {t : LogTarget} {o : Owner} {logCallback : Bool}

theorem reached_sound {s' : BankThreads} (sound : s.Sound) (reached : Runs.Reached Step s s') :
    s'.Sound := by
  obtain ⟨actions, run⟩ := reached
  refine Runs.run_invariant Sound sound ?_ run
  rintro s a _ sound ⟨allowed, rfl⟩
  exact apply_sound sound allowed

theorem reached_checked (s : BankThreads) (actions : List ThreadAction)
    (checked : Runs.Checked Allowed apply s actions) :
    Runs.Reached Step s (actions.foldl apply s) :=
  ⟨actions, Runs.run_checked (fun _ _ allowed => ⟨allowed, rfl⟩) checked⟩

theorem rotate_run (sound : (quiet ⟨t, o⟩ logCallback).Sound) :
    Runs.Reached Step (quiet ⟨t, o⟩ logCallback) (quiet ⟨t.rotate.1, o⟩ logCallback) := by
  rcases t.rotate_cases with ⟨_, h⟩ | ⟨data, free, h⟩ | ⟨data, _, room, next, avail, out, free, items, h⟩ |
    ⟨_, free, full, _⟩
  · rw [h]
    exact ⟨[], .start⟩
  · have some : 0 < t.current.data.length := List.length_pos_of_ne_nil data
    have none := (BoundedQueue.remove_none_iff _).mpr free
    have run := reached_checked (quiet ⟨t, o⟩ logCallback)
      [.beginRotate, .rotateOn, .rotateOn] ⟨rfl, trivial, trivial, trivial⟩
    simpa [apply, quiet, rotateOn, some, none, h] using run
  · have some : 0 < t.current.data.length := List.length_pos_of_ne_nil data
    obtain ⟨avail', removed, left⟩ := BoundedQueue.remove_cons free
    obtain ⟨added, items'⟩ := BoundedQueue.addIfRoom_room t.currentBuffer room
    have run := reached_checked (quiet ⟨t, o⟩ logCallback)
      [.beginRotate, .rotateOn, .rotateOn, .rotateOn]
      ⟨rfl, trivial, trivial, trivial, trivial⟩
    have sameAvail : avail' = avail := BoundedQueue.ext left
    have sameOut : (t.writeOutBuffers.addIfRoom t.currentBuffer).1 = out :=
      BoundedQueue.ext (items'.trans items.symm)
    simpa [apply, quiet, rotateOn, some, removed, added, sameAvail, sameOut, h] using run
  · have total := sound.total
    have some := List.length_pos_of_ne_nil free
    simp only [quiet, places, currentOnly, rotatingHand, handed, List.length_append,
      List.length_cons] at total
    exact absurd (show t.writeOutBuffers.HasRoom by unfold BoundedQueue.HasRoom; omega) full

def handing (s : BankState) (logCallback : Bool) (b : BufId) (task : Task) : BankThreads :=
  { quiet s logCallback with hands := [(b, task)] }

theorem release_run {b : BufId} (room : t.availBuffers.HasRoom) :
    Runs.Reached Step (handing ⟨t, o⟩ logCallback b .clear)
      (quiet ⟨(t.clearBuffer b).addAvail b, o⟩ logCallback) := by
  have run := reached_checked (handing ⟨t, o⟩ logCallback b .clear)
    [.work 0, .work 0] ⟨trivial, trivial, trivial⟩
  have still : (t.clearBuffer b).availBuffers.HasRoom := room
  simpa [apply, handing, quiet, workOn, setHand, dropHand, still] using run

theorem returnBuffer_run {b : BufId} {nocallback : Bool}
    (sound : (handing ⟨t, o⟩ logCallback b (.returnBuffer false nocallback)).Sound) :
    Runs.Reached Step (handing ⟨t, o⟩ logCallback b (.returnBuffer false nocallback))
      (quiet ⟨(t.returnBuffer o b nocallback).1, (t.returnBuffer o b nocallback).2⟩ logCallback) := by
  have room : t.availBuffers.HasRoom := sound.avail_room (List.mem_singleton_self _)
  set counted := if (t.buffers b).isEmpty then o else o.unrefGreaseInGrease with countedDef
  have first := reached_checked (handing ⟨t, o⟩ logCallback b (.returnBuffer false nocallback))
    [.work 0] ⟨trivial, trivial⟩
  have eq : t.returnBuffer o b nocallback = t.callbackOrRelease counted b
      (!nocallback && t.logCallbackSet && !(t.buffers b).isEmpty) := rfl
  rw [eq, LogTarget.callbackOrRelease]
  by_cases wanted : (!nocallback && t.logCallbackSet && !(t.buffers b).isEmpty) = true
  · simp only [List.foldl_cons, List.foldl_nil, apply, handing, List.getElem?_cons_zero, workOn,
      setHand, List.set_cons_zero, quiet, wanted, ↓reduceIte, Bool.false_eq_true, ← countedDef] at first
    have second := reached_checked (handing ⟨t, counted⟩ logCallback b .queue)
      [.work 0] ⟨trivial, trivial⟩
    rw [if_pos wanted]
    cases added : (counted.addCallback (.buffer t.myId b)).2 with
    | true =>
      simp only [added, ↓reduceIte]
      simp [apply, handing, quiet, workOn, dropHand, added] at second
      exact Runs.reached_trans first second
    | false =>
      simp only [added, Bool.false_eq_true, ↓reduceIte]
      simp [apply, handing, quiet, workOn, setHand, added] at second
      exact Runs.reached_trans first (Runs.reached_trans second (release_run room))
  · simp only [List.foldl_cons, List.foldl_nil, apply, handing, List.getElem?_cons_zero, workOn,
      setHand, List.set_cons_zero, quiet, wanted, Bool.false_eq_true, ↓reduceIte, ← countedDef] at first
    rw [if_neg wanted]
    exact Runs.reached_trans first (release_run room)

theorem flush_run {b : BufId} {nocallbacks : Bool}
    (sound : (handing ⟨t, o⟩ logCallback b (.flush nocallbacks)).Sound) :
    Runs.Reached Step (handing ⟨t, o⟩ logCallback b (.flush nocallbacks))
      (quiet ⟨(t.flush o b nocallbacks).1, (t.flush o b nocallbacks).2⟩ logCallback) := by
  have first := reached_checked (handing ⟨t, o⟩ logCallback b (.flush nocallbacks))
    [.work 0] ⟨trivial, trivial⟩
  rcases t.flush_cases o b nocallbacks with ⟨other, h⟩ | ⟨callback, h⟩
  · rw [h]
    have submits : (handing ⟨t, o⟩ logCallback b (.flush nocallbacks)).workOn 0 b (.flush nocallbacks) =
        quiet ⟨{ t with inflight := t.inflight ++ [.buffer b nocallbacks] }, o⟩ logCallback := by
      cases kind : t.kind with
      | callback => exact absurd kind other
      | tty => simp [workOn, handing, quiet, kind, dropHand]
      | file => simp [workOn, handing, quiet, kind, dropHand]
    exact submits ▸ first
  · rw [h]
    have returns : (handing ⟨t, o⟩ logCallback b (.flush nocallbacks)).workOn 0 b (.flush nocallbacks) =
        handing ⟨t, o⟩ logCallback b (.returnBuffer false nocallbacks) := by
      simp [workOn, handing, quiet, callback, setHand]
    have held : Runs.Reached Step (handing ⟨t, o⟩ logCallback b (.flush nocallbacks))
        (handing ⟨t, o⟩ logCallback b (.returnBuffer false nocallbacks)) := returns ▸ first
    exact Runs.reached_trans held (returnBuffer_run (reached_sound sound held))

theorem callbackOrRelease_writeOut (t : LogTarget) (o : Owner) (b : BufId) (wanted : Bool)
    (q : BoundedQueue BufId (NUM_BANKS - 1)) :
    ({ t with writeOutBuffers := q }).callbackOrRelease o b wanted =
        ({ (t.callbackOrRelease o b wanted).1 with writeOutBuffers := q },
          (t.callbackOrRelease o b wanted).2) ∧
      (t.callbackOrRelease o b wanted).1.writeOutBuffers = t.writeOutBuffers := by
  unfold LogTarget.callbackOrRelease
  split
  · simp only
    cases (o.addCallback (.buffer t.myId b)).2 with
    | true => exact ⟨rfl, rfl⟩
    | false => exact ⟨rfl, rfl⟩
  · exact ⟨rfl, rfl⟩

theorem flush_writeOut (t : LogTarget) (o : Owner) (b : BufId) (nocallbacks : Bool)
    (q : BoundedQueue BufId (NUM_BANKS - 1)) :
    ({ t with writeOutBuffers := q }).flush o b nocallbacks =
        ({ (t.flush o b nocallbacks).1 with writeOutBuffers := q }, (t.flush o b nocallbacks).2) ∧
      (t.flush o b nocallbacks).1.writeOutBuffers = t.writeOutBuffers := by
  rcases t.flush_cases o b nocallbacks with ⟨other, h⟩ | ⟨callback, h⟩
  · rcases ({ t with writeOutBuffers := q }).flush_cases o b nocallbacks with ⟨_, h'⟩ | ⟨callback, _⟩
    · rw [h, h']
      exact ⟨rfl, rfl⟩
    · exact absurd callback other
  · rcases ({ t with writeOutBuffers := q }).flush_cases o b nocallbacks with ⟨other, _⟩ | ⟨_, h'⟩
    · exact absurd callback other
    · rw [h, h']
      exact callbackOrRelease_writeOut t _ b _ q

theorem flushOut_run {nocallbacks : Bool} {out : List BufId} (items : t.writeOutBuffers.items = out)
    (sound : (quiet ⟨t, o⟩ logCallback).Sound) :
    Runs.Reached Step (quiet ⟨t, o⟩ logCallback)
      (quiet ⟨(({ t with writeOutBuffers := .empty }).flushOut o nocallbacks out).1,
        (({ t with writeOutBuffers := .empty }).flushOut o nocallbacks out).2⟩ logCallback) := by
  induction out generalizing t o with
  | nil =>
    have none : ({ t with writeOutBuffers := .empty } : LogTarget) = t := by
      rw [← BoundedQueue.ext (q := t.writeOutBuffers) (r := .empty) items]
    simp only [LogTarget.flushOut, none]
    exact ⟨[], .start⟩
  | cons b rest ih =>
    obtain ⟨queue, removed, left⟩ := BoundedQueue.remove_cons items
    have taken := reached_checked (quiet ⟨t, o⟩ logCallback)
      [.takeOut false nocallbacks] ⟨trivial, trivial⟩
    have hand : Runs.Reached Step (quiet ⟨t, o⟩ logCallback)
        (handing ⟨{ t with writeOutBuffers := queue }, o⟩ logCallback b (.flush nocallbacks)) := by
      simpa [apply, quiet, handing, removed] using taken
    have flushed := Runs.reached_trans hand (flush_run (reached_sound sound hand))
    obtain ⟨same, kept⟩ := flush_writeOut t o b nocallbacks queue
    obtain ⟨same', _⟩ := flush_writeOut t o b nocallbacks .empty
    rw [same] at flushed
    have others := ih left (reached_sound sound flushed)
    have eq : (({ t with writeOutBuffers := .empty }).flushOut o nocallbacks (b :: rest)) =
        ({ (t.flush o b nocallbacks).1 with writeOutBuffers := .empty } : LogTarget).flushOut
          (t.flush o b nocallbacks).2 nocallbacks rest := by
      rw [LogTarget.flushOut, same']
    rw [eq]
    exact Runs.reached_trans flushed others

theorem bankAction_run {bank : BankState} {a : BankAction}
    (moves : a = .rotate ∨ (∃ doRotate nocallbacks, a = .flushAll doRotate nocallbacks) ∨
      a = .writeCb ∨ a = .callV8LogCallback ∧ logCallback = true)
    (sound : (quiet bank logCallback).Sound) :
    Runs.Reached Step (quiet bank logCallback) (quiet (bank.apply a) logCallback) := by
  obtain ⟨t, o⟩ := bank
  rcases moves with rfl | ⟨doRotate, nocallbacks, rfl⟩ | rfl | ⟨rfl, rfl⟩
  · exact rotate_run sound
  · cases doRotate with
    | false => exact flushOut_run rfl sound
    | true =>
      have turned := rotate_run sound
      exact Runs.reached_trans turned (flushOut_run rfl (reached_sound sound turned))
  · simp only [BankState.apply, LogTarget.writeCb]
    have done := reached_checked (quiet ⟨t, o⟩ logCallback) [.writeDone 0]
      ⟨trivial, trivial⟩
    cases submitted : t.inflight with
    | nil => exact ⟨[], .start⟩
    | cons w rest =>
      cases w with
      | buffer b nocallback =>
        have hand : Runs.Reached Step (quiet ⟨t, o⟩ logCallback)
            (handing ⟨{ t with inflight := rest }, o⟩ logCallback b (.returnBuffer false nocallback)) := by
          simpa [apply, writeDone, quiet, handing, submitted] using done
        exact Runs.reached_trans hand (returnBuffer_run (reached_sound sound hand))
      | overflow entry nocallback =>
        simpa [apply, writeDone, quiet, submitted] using done
  · simp only [BankState.apply, LogTarget.callV8LogCallback]
    have taken := reached_checked (quiet ⟨t, o⟩ true) [.deliver] ⟨rfl, trivial⟩
    cases removed : o.v8LogCallbacks.remove with
    | none => exact ⟨[], .start⟩
    | some r =>
      obtain ⟨d, rest⟩ := r
      set left : Owner := { o with v8LogCallbacks := rest, needV8 := o.needV8 - 1 } with leftDef
      have others : d.bufOf t.myId = none →
          Runs.Reached Step (quiet ⟨t, o⟩ true) (quiet ⟨t, left⟩ true) := by
        intro none
        simpa [apply, deliver, quiet, removed, none, leftDef] using taken
      cases d with
      | overflow id entry => exact others rfl
      | buffer id b =>
        by_cases ours : id = t.myId
        · have hand : Runs.Reached Step (quiet ⟨t, o⟩ true) (handing ⟨t, left⟩ true b .callback) := by
            simpa [apply, deliver, quiet, handing, removed, WriteCBData.bufOf, ours, leftDef] using taken
          have room := (reached_sound sound hand).avail_room
            (List.mem_singleton_self (b, Task.callback))
          have called := reached_checked (handing ⟨t, left⟩ true b .callback)
            [.work 0, .work 0] ⟨trivial, trivial, trivial⟩
          have added : (t.availBuffers.addIfRoom b).2 = true :=
            (BoundedQueue.addIfRoom_room b room).1
          simp only [ours, ↓reduceIte]
          refine Runs.reached_trans hand ?_
          simp only [List.foldl_cons, List.foldl_nil, apply, handing, quiet, workOn, setHand, dropHand,
            List.getElem?_cons_zero, List.set_cons_zero, List.eraseIdx_cons_zero,
            LogTarget.clearBuffer, LogTarget.setBuffer, added, ↓reduceIte] at called
          exact called
        · simp only [ours, ↓reduceIte]
          exact others (by simp [WriteCBData.bufOf, ours])

end BankThreads

end GreaseLog
