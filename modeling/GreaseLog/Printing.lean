import GreaseLog.LogTarget

/- What putsHeader and putsFooter make of their buffer: the texts they print, the
   calls of snprintf for them, and when these stay inside the buffer. -/
namespace GreaseLog

/-- A text to print. A guarded one is left out when there is no space for anything. -/
structure PrintPart where
  guarded : Bool
  text : List Byte
  deriving DecidableEq

structure PrintCall where
  offset : Nat
  size : Nat
  text : List Byte
  deriving DecidableEq

def PrintCall.stored (c : PrintCall) : List Byte :=
  if c.size = 0 then [] else c.text.take (c.size - 1) ++ [0]

/-- Whether the byte at i is the NUL of the last call that has stored anything there. -/
def terminates (calls : List PrintCall) (i : Nat) : Bool :=
  calls.foldl (fun before c =>
    if c.offset ≤ i ∧ i < c.offset + c.stored.length then
      decide (i + 1 = c.offset + c.stored.length)
    else before) false

structure Printed where
  mem : Mem
  space : Nat
  calls : List PrintCall := []

def Printed.print (place : Nat → Nat) (p : Printed) (part : PrintPart) : Printed :=
  if part.guarded ∧ p.space = 0 then p
  else
    { mem := snprintf p.mem (place p.space) p.space part.text
      space := sizeSub p.space part.text.length
      calls := p.calls ++ [⟨place p.space, p.space, part.text⟩] }

/-- A filter's format, printed whatever space there is. -/
def filterPart (env : WriteEnv) (fmt : LogLabel) : List PrintPart :=
  if fmt.empty then [] else [⟨false, env.format fmt.text []⟩]

def targetPart (env : WriteEnv) (fmt : LogLabel) (args : List FormatArg) : List PrintPart :=
  if 0 < fmt.length then [⟨true, env.format fmt.text args⟩] else []

def levelPart (fm : TargetFormats) (env : WriteEnv) (level : LevelMask) : List PrintPart :=
  match env.levelLabels level with
  | some label =>
    if 0 < label.length then targetPart env fm.levelFormat [.string label.text] else []
  | none => []

/-- The texts that putsHeader comes to, in its order. -/
def headerParts (fm : TargetFormats) (env : WriteEnv) (m : LogMeta) (filter : Filter) :
    List PrintPart :=
  filterPart env filter.preFormat ++ targetPart env fm.preFormat [] ++
    targetPart env fm.timeFormat [.number env.clock.1, .number env.clock.2] ++
    levelPart fm env m.level ++
    targetPart env fm.tagFormat
      [.string (if 0 < m.tag then labelText (env.tagLabels m.tag) else emptyLabel)] ++
    targetPart env fm.originFormat
      [.string (if 0 < m.origin then labelText (env.originLabels m.origin) else emptyLabel)] ++
    targetPart env fm.preMsgFormat [] ++ filterPart env filter.postFormatPreMsg

def headerText (fm : TargetFormats) (env : WriteEnv) (m : LogMeta) (filter : Filter) : List Byte :=
  (headerParts fm env m filter).flatMap PrintPart.text

def headerPrinted (fm : TargetFormats) (env : WriteEnv) (mem : Mem) (remain : Nat) (m : LogMeta)
    (filter : Filter) : Printed :=
  (headerParts fm env m filter).foldl (Printed.print (sizeSub remain)) ⟨mem, remain, []⟩

def filterFooter (env : WriteEnv) (filter : Filter) : List Byte :=
  (filterPart env filter.postFormat).flatMap PrintPart.text

def targetFooter (fm : TargetFormats) (env : WriteEnv) : List Byte :=
  (targetPart env fm.postFormat []).flatMap PrintPart.text

def footerText (fm : TargetFormats) (env : WriteEnv) (filter : Filter) : List Byte :=
  filterFooter env filter ++ targetFooter fm env

/-- Both at the start of mem. -/
def footerPrinted (fm : TargetFormats) (env : WriteEnv) (mem : Mem) (remain : Nat)
    (filter : Filter) : Printed :=
  (filterPart env filter.postFormat ++ targetPart env fm.postFormat []).foldl
    (Printed.print fun _ => 0) ⟨mem, remain, []⟩

/-! The parts are those of putsHeader and putsFooter. -/

def Printed.pair (p : Printed) : Mem × Nat := (p.mem, p.space)

theorem print_pair (place : Nat → Nat) (p : Printed) (part : PrintPart) :
    (p.print place part).pair = if part.guarded ∧ p.pair.2 = 0 then p.pair
      else (snprintf p.pair.1 (place p.pair.2) p.pair.2 part.text,
        sizeSub p.pair.2 part.text.length) := by
  by_cases skipped : part.guarded ∧ p.space = 0
  · rw [Printed.print, if_pos skipped, if_pos (show part.guarded ∧ p.pair.2 = 0 from skipped)]
  · rw [Printed.print, if_neg skipped, if_neg (show ¬ (part.guarded ∧ p.pair.2 = 0) from skipped)]
    rfl

theorem filterPart_pair (place : Nat → Nat) (env : WriteEnv) (fmt : LogLabel) (p : Printed) :
    ((filterPart env fmt).foldl (Printed.print place) p).pair =
      if fmt.empty then p.pair else puts env.format (place p.pair.2) fmt [] p.pair := by
  unfold filterPart
  split
  · rfl
  · simp [print_pair, puts]

theorem targetPart_pair (place : Nat → Nat) (env : WriteEnv) (fmt : LogLabel)
    (args : List FormatArg) (p : Printed) :
    ((targetPart env fmt args).foldl (Printed.print place) p).pair =
      if 0 < fmt.length ∧ 0 < p.pair.2 then puts env.format (place p.pair.2) fmt args p.pair
      else p.pair := by
  unfold targetPart
  by_cases set : 0 < fmt.length
  · rcases Nat.eq_zero_or_pos p.pair.2 with none | some
    · simp [set, print_pair, none]
    · simp [set, print_pair, puts, some, Nat.ne_of_gt some]
  · simp [set]

theorem levelPart_pair (place : Nat → Nat) (fm : TargetFormats) (env : WriteEnv)
    (level : LevelMask) (p : Printed) :
    ((levelPart fm env level).foldl (Printed.print place) p).pair =
      if 0 < fm.levelFormat.length ∧ 0 < p.pair.2 then
        match env.levelLabels level with
        | some label =>
          if 0 < label.length then
            puts env.format (place p.pair.2) fm.levelFormat [.string label.text] p.pair
          else p.pair
        | none => p.pair
      else p.pair := by
  unfold levelPart
  cases env.levelLabels level with
  | none => simp
  | some label =>
    by_cases named : 0 < label.length
    · simp only [named, if_true, targetPart_pair]
    · simp [named]

theorem putsHeader_eq (fm : TargetFormats) (env : WriteEnv) (mem : Mem) (remain : Nat)
    (m : LogMeta) (filter : Filter) :
    putsHeader fm env mem remain m filter =
      ((headerPrinted fm env mem remain m filter).mem,
        sizeSub remain (headerPrinted fm env mem remain m filter).space) := by
  change _ = ((headerPrinted fm env mem remain m filter).pair.1,
    sizeSub remain (headerPrinted fm env mem remain m filter).pair.2)
  simp only [headerPrinted, headerParts, List.foldl_append, filterPart_pair, targetPart_pair,
    levelPart_pair]
  rfl

theorem putsFooter_eq (fm : TargetFormats) (env : WriteEnv) (mem : Mem) (remain : Nat)
    (filter : Filter) :
    putsFooter fm env mem remain filter =
      ((footerPrinted fm env mem remain filter).mem,
        sizeSub remain (footerPrinted fm env mem remain filter).space) := by
  change _ = ((footerPrinted fm env mem remain filter).pair.1,
    sizeSub remain (footerPrinted fm env mem remain filter).pair.2)
  simp only [footerPrinted, List.foldl_append, filterPart_pair, targetPart_pair]
  rfl

/-! Memory, and which of it holds a NUL. -/

theorem store_inside (mem : Mem) {offset i : Nat} {bytes : List Byte} (low : offset ≤ i)
    (high : i < offset + bytes.length) : mem.store offset bytes i = bytes[i - offset] := by
  have short : i - offset < bytes.length := by omega
  simp [Mem.store, low, short]

theorem store_outside (mem : Mem) {offset i : Nat} {bytes : List Byte}
    (apart : i < offset ∨ offset + bytes.length ≤ i) : mem.store offset bytes i = mem i := by
  rcases apart with low | high
  · simp [Mem.store, low]
  · have past : bytes.length ≤ i - offset := by omega
    simp [Mem.store, past]

theorem store_last (mem : Mem) {offset i : Nat} {bytes : List Byte} {b : Byte}
    (last : i + 1 = offset + (bytes ++ [b]).length) : mem.store offset (bytes ++ [b]) i = b := by
  rw [List.length_append, List.length_singleton] at last
  have index : i - offset = bytes.length := by omega
  rw [store_inside mem (by omega) (by rw [List.length_append, List.length_singleton]; omega)]
  simp [index]

theorem read_eq_iff (mem : Mem) (text : List Byte) :
    mem.read text.length = text ↔ ∀ i (inside : i < text.length), mem i = text[i] := by
  constructor
  · intro same i inside
    have within : i < (mem.read text.length).length := by simpa using inside
    have byte := List.getElem_of_eq same within
    simpa [Mem.read] using byte
  · intro each
    apply List.ext_getElem (by simp)
    intro i _ inside
    simpa [Mem.read] using each i inside

theorem read_take (mem : Mem) {n m : Nat} (le : n ≤ m) : (mem.read m).take n = mem.read n := by
  rw [Mem.read, Mem.read, ← List.map_take, List.take_range, Nat.min_eq_left le]

theorem read_store_append {mem : Mem} {text : List Byte} (read : mem.read text.length = text)
    (more : List Byte) : (mem.store text.length more).read (text ++ more).length = text ++ more := by
  rw [read_eq_iff]
  intro i inside
  rw [List.length_append] at inside
  by_cases before : i < text.length
  · rw [store_outside _ (Or.inl before), List.getElem_append_left before]
    exact (read_eq_iff _ _).mp read i before
  · have behind : text.length ≤ i := Nat.le_of_not_lt before
    rw [store_inside _ behind (by omega), List.getElem_append_right behind]

theorem read_store_behind {mem : Mem} {text : List Byte} (read : mem.read text.length = text)
    (more : List Byte) :
    (mem.store text.length (more ++ [0])).read (text ++ more).length = text ++ more := by
  have all := read_store_append read (more ++ [0])
  rw [← List.append_assoc] at all
  have shorter : (text ++ more).length ≤ (text ++ more ++ [0]).length := by
    simp
  rw [← read_take _ shorter, all, List.take_left]

theorem snprintf_eq (mem : Mem) (c : PrintCall) :
    snprintf mem c.offset c.size c.text = mem.store c.offset c.stored := by
  unfold snprintf PrintCall.stored
  split
  · funext i
    simp [Mem.store]
  · rfl

theorem terminates_append (calls : List PrintCall) (c : PrintCall) (i : Nat) :
    terminates (calls ++ [c]) i =
      if c.offset ≤ i ∧ i < c.offset + c.stored.length then
        decide (i + 1 = c.offset + c.stored.length)
      else terminates calls i := by
  simp [terminates, List.foldl_append]

theorem stored_whole {c : PrintCall} (room : c.text.length < c.size) :
    c.stored = c.text ++ [0] := by
  have some : c.size ≠ 0 := by omega
  have all : c.text.length ≤ c.size - 1 := by omega
  simp [PrintCall.stored, some, List.take_of_length_le all]

theorem stored_length_cut {c : PrintCall} (cut : c.size ≤ c.text.length) :
    c.stored.length = c.size := by
  unfold PrintCall.stored
  split
  · simp [*]
  · simp only [List.length_append, List.length_take, List.length_singleton]
    omega

theorem stored_length_le (c : PrintCall) : c.stored.length ≤ c.size := by
  rcases Nat.lt_or_ge c.text.length c.size with room | cut
  · rw [stored_whole room, List.length_append, List.length_singleton]
    omega
  · exact Nat.le_of_eq (stored_length_cut cut)

theorem sizeSub_of_le {a b : Nat} (le : b ≤ a) (small : a < SIZE_MODULUS) : sizeSub a b = a - b := by
  unfold sizeSub SIZE_MODULUS at *
  omega

theorem sizeSub_lt (a b : Nat) : sizeSub a b < SIZE_MODULUS := by
  unfold sizeSub SIZE_MODULUS
  omega

theorem sizeSub_twice (a : Nat) {b : Nat} (small : b < SIZE_MODULUS) :
    sizeSub a (sizeSub a b) = b := by
  unfold sizeSub SIZE_MODULUS at *
  omega

theorem sizeSub_add (a b c : Nat) : sizeSub (sizeSub a b) c = sizeSub a (b + c) := by
  unfold sizeSub SIZE_MODULUS
  omega

theorem eq_of_sizeSub_eq_zero {a b : Nat} (left : a < SIZE_MODULUS) (right : b < SIZE_MODULUS)
    (zero : sizeSub a b = 0) : a = b := by
  unfold sizeSub SIZE_MODULUS at *
  omega

theorem sizeSub_of_lt {a b : Nat} (lt : a < b) (small : b < SIZE_MODULUS) :
    sizeSub a b = SIZE_MODULUS + a - b := by
  unfold sizeSub SIZE_MODULUS at *
  omega

/-! A text that is put behind the others. -/

structure Fits (remain : Nat) (p : Printed) (text : List Byte) : Prop where
  short : text.length < remain
  space : p.space = remain - text.length
  read : p.mem.read text.length = text
  regions : ∀ c ∈ p.calls, c.offset + c.size ≤ remain
  clean : ∀ i < text.length, terminates p.calls i = false

/-- The space is used up to the NUL of a text, or the subtraction has wrapped. -/
def Outgrown (remain total : Nat) (p : Printed) : Prop :=
  (p.space = 0 ∧ terminates p.calls (remain - 1) = true) ∨
    ∃ n, remain < n ∧ n ≤ total ∧ p.space = SIZE_MODULUS + remain - n

variable {remain total : Nat} {p : Printed} {text : List Byte}

theorem fits_print (fits : Fits remain p text) (size : remain < SIZE_MODULUS) (part : PrintPart)
    (room : (text ++ part.text).length < remain) :
    Fits remain (p.print (sizeSub remain) part) (text ++ part.text) := by
  obtain ⟨short, space, read, regions, clean⟩ := fits
  rw [List.length_append] at room
  have place : sizeSub remain p.space = text.length := by
    rw [space, sizeSub_of_le (Nat.sub_le _ _) size]
    omega
  have some : ¬ (part.guarded ∧ p.space = 0) := by omega
  have whole : (PrintCall.mk text.length p.space part.text).stored = part.text ++ [0] :=
    stored_whole (by simp only; omega)
  rw [Printed.print, if_neg some, place]
  constructor
  · simpa using room
  · simp only [List.length_append]
    rw [space, sizeSub_of_le (by omega) (by omega)]
    omega
  · simp only
    rw [snprintf_eq p.mem ⟨text.length, p.space, part.text⟩, whole]
    exact read_store_behind read part.text
  · intro c mem
    rcases List.mem_append.mp mem with old | new
    · exact regions c old
    · rw [List.mem_singleton.mp new]
      simp only
      omega
  · intro i inside
    rw [List.length_append] at inside
    rw [terminates_append, whole]
    simp only [List.length_append, List.length_singleton]
    split
    · simp only [decide_eq_false_iff_not]
      omega
    · exact clean i (by omega)

theorem fits_outgrown (fits : Fits remain p text) (size : remain < SIZE_MODULUS)
    (part : PrintPart) (reached : remain ≤ (text ++ part.text).length)
    (count : (text ++ part.text).length < SIZE_MODULUS) :
    Outgrown remain (text ++ part.text).length (p.print (sizeSub remain) part) := by
  obtain ⟨short, space, read, regions, clean⟩ := fits
  rw [List.length_append] at reached count ⊢
  have place : sizeSub remain p.space = text.length := by
    rw [space, sizeSub_of_le (Nat.sub_le _ _) size]
    omega
  have some : ¬ (part.guarded ∧ p.space = 0) := by omega
  have cut : (PrintCall.mk text.length p.space part.text).stored.length = p.space :=
    stored_length_cut (by simp only; omega)
  rw [Printed.print, if_neg some, place]
  rcases Nat.eq_or_lt_of_le reached with exact | beyond
  · left
    constructor
    · simp only
      rw [space, sizeSub_of_le (by omega) (by omega)]
      omega
    · rw [terminates_append, cut]
      simp only
      rw [if_pos (by omega), decide_eq_true_iff]
      omega
  · right
    refine ⟨text.length + part.text.length, beyond, Nat.le_refl _, ?_⟩
    simp only
    rw [space, sizeSub_of_lt (by omega) (by omega)]
    omega

theorem outgrown_print (outgrown : Outgrown remain total p) (size : remain < SIZE_MODULUS)
    (part : PrintPart) (count : total + part.text.length < SIZE_MODULUS) (reached : remain ≤ total) :
    Outgrown remain (total + part.text.length) (p.print (sizeSub remain) part) := by
  by_cases skipped : part.guarded ∧ p.space = 0
  · rw [Printed.print, if_pos skipped]
    rcases outgrown with full | ⟨n, beyond, le, space⟩
    · exact Or.inl full
    · exact Or.inr ⟨n, beyond, by omega, space⟩
  · rw [Printed.print, if_neg skipped]
    rcases outgrown with ⟨full, ends⟩ | ⟨n, beyond, le, space⟩
    · by_cases blank : part.text = []
      · left
        have none : (PrintCall.mk (sizeSub remain p.space) p.space part.text).stored = [] :=
          if_pos full
        constructor
        · simp only [blank, List.length_nil]
          rw [full, sizeSub_of_le (Nat.le_refl _) (by omega)]
        · rw [terminates_append, none, if_neg]
          · exact ends
          · simp only [List.length_nil]
            omega
      · right
        have long : 0 < part.text.length := List.length_pos_iff.mpr blank
        refine ⟨remain + part.text.length, by omega, by omega, ?_⟩
        simp only
        rw [full, sizeSub_of_lt long (by omega)]
        omega
    · right
      refine ⟨n + part.text.length, by omega, by omega, ?_⟩
      simp only
      rw [space, sizeSub_of_le (by omega) (by omega)]
      omega

theorem outgrown_all (size : remain < SIZE_MODULUS) (parts : List PrintPart) {p : Printed}
    {total : Nat} (outgrown : Outgrown remain total p) (reached : remain ≤ total)
    (count : total + (parts.flatMap PrintPart.text).length < SIZE_MODULUS) :
    Outgrown remain (total + (parts.flatMap PrintPart.text).length)
      (parts.foldl (Printed.print (sizeSub remain)) p) := by
  induction parts generalizing p total with
  | nil => exact outgrown
  | cons part rest ih =>
    rw [List.flatMap_cons, List.length_append, ← Nat.add_assoc] at count ⊢
    have first := outgrown_print outgrown size part (by omega) reached
    exact ih first (by omega) count

def NulsHeld (p : Printed) : Prop := ∀ i, terminates p.calls i = true → p.mem i = 0

theorem print_nuls (place : Nat → Nat) (held : NulsHeld p) (part : PrintPart) :
    NulsHeld (p.print place part) := by
  intro i ends
  by_cases skipped : part.guarded ∧ p.space = 0
  · rw [Printed.print, if_pos skipped] at ends ⊢
    exact held i ends
  · rw [Printed.print, if_neg skipped] at ends ⊢
    simp only at ends ⊢
    rw [snprintf_eq p.mem ⟨place p.space, p.space, part.text⟩]
    rw [terminates_append] at ends
    split at ends
    · rename_i inside
      rw [decide_eq_true_iff] at ends
      have stored : (PrintCall.mk (place p.space) p.space part.text).stored =
          part.text.take (p.space - 1) ++ [0] := by
        refine if_neg fun none => ?_
        rw [PrintCall.stored, if_pos none, List.length_nil] at inside
        omega
      rw [stored] at ends ⊢
      exact store_last p.mem ends
    · rename_i outside
      rw [store_outside _ (by omega)]
      exact held i ends

theorem foldl_nuls (place : Nat → Nat) (parts : List PrintPart) {p : Printed} (held : NulsHeld p) :
    NulsHeld (parts.foldl (Printed.print place) p) := by
  induction parts generalizing p with
  | nil => exact held
  | cons part rest ih => exact ih (print_nuls place held part)

/-- All of the texts fit, or they do not from some text on. -/
theorem print_all (size : remain < SIZE_MODULUS) (parts : List PrintPart) {p : Printed}
    {text : List Byte} (fits : Fits remain p text) (all : List Byte)
    (total : all = text ++ parts.flatMap PrintPart.text) (count : all.length < SIZE_MODULUS) :
    (all.length < remain ∧ Fits remain (parts.foldl (Printed.print (sizeSub remain)) p) all) ∨
      (remain ≤ all.length ∧
        Outgrown remain all.length (parts.foldl (Printed.print (sizeSub remain)) p)) := by
  induction parts generalizing p text with
  | nil =>
    simp only [List.flatMap_nil, List.append_nil] at total
    subst total
    exact Or.inl ⟨fits.short, fits⟩
  | cons part rest ih =>
    rw [List.flatMap_cons, ← List.append_assoc] at total
    by_cases room : (text ++ part.text).length < remain
    · exact ih (fits_print fits size part room) total
    · right
      have length : all.length = (text ++ part.text).length +
          (rest.flatMap PrintPart.text).length := by rw [total, List.length_append]
      rw [length] at count ⊢
      have first := fits_outgrown fits size part (Nat.le_of_not_lt room) (by omega)
      exact ⟨by omega, outgrown_all size rest first (Nat.le_of_not_lt room) count⟩

/-! putsHeader -/

/-- What its buffer can expect of putsHeader: each call of snprintf is given some of it,
    and what is counted is a beginning of the formatted parts, without a NUL. -/
structure HeaderRespects (fm : TargetFormats) (env : WriteEnv) (mem : Mem) (remain : Nat)
    (m : LogMeta) (filter : Filter) : Prop where
  regions : ∀ c ∈ (headerPrinted fm env mem remain m filter).calls, c.offset + c.size ≤ remain
  count : (putsHeader fm env mem remain m filter).2 ≤ remain
  text : (putsHeader fm env mem remain m filter).1.read
    (putsHeader fm env mem remain m filter).2 <+: headerText fm env m filter
  noNul : ∀ i < (putsHeader fm env mem remain m filter).2,
    terminates (headerPrinted fm env mem remain m filter).calls i = false

theorem headerPrinted_fits (fm : TargetFormats) (env : WriteEnv) (mem : Mem) {remain : Nat}
    (some : 0 < remain) (size : remain < SIZE_MODULUS) (m : LogMeta) (filter : Filter)
    (count : (headerText fm env m filter).length < SIZE_MODULUS) :
    ((headerText fm env m filter).length < remain ∧
      Fits remain (headerPrinted fm env mem remain m filter) (headerText fm env m filter)) ∨
    (remain ≤ (headerText fm env m filter).length ∧
      Outgrown remain (headerText fm env m filter).length
        (headerPrinted fm env mem remain m filter)) := by
  have start : Fits remain ⟨mem, remain, []⟩ [] := by
    refine ⟨some, rfl, rfl, ?_, ?_⟩
    · intro c mem
      cases mem
    · intro i inside
      cases inside
  exact print_all size _ start _ rfl count

theorem headerPrinted_nuls (fm : TargetFormats) (env : WriteEnv) (mem : Mem) (remain : Nat)
    (m : LogMeta) (filter : Filter) : NulsHeld (headerPrinted fm env mem remain m filter) :=
  foldl_nuls _ _ fun _ ends => by cases ends

theorem fits_putsHeader {fm : TargetFormats} {env : WriteEnv} {mem : Mem} {remain : Nat}
    (size : remain < SIZE_MODULUS) {m : LogMeta} {filter : Filter}
    (fits : Fits remain (headerPrinted fm env mem remain m filter) (headerText fm env m filter)) :
    (putsHeader fm env mem remain m filter).2 = (headerText fm env m filter).length ∧
      (putsHeader fm env mem remain m filter).1.read (headerText fm env m filter).length =
        headerText fm env m filter := by
  rw [putsHeader_eq]
  refine ⟨?_, fits.read⟩
  have short := fits.short
  simp only
  rw [fits.space, sizeSub_of_le (Nat.sub_le _ _) size]
  omega

theorem putsHeader_respects_iff (fm : TargetFormats) (env : WriteEnv) (mem : Mem) {remain : Nat}
    (some : 0 < remain) (size : remain < SIZE_MODULUS) (m : LogMeta) (filter : Filter)
    (count : (headerText fm env m filter).length < SIZE_MODULUS) :
    HeaderRespects fm env mem remain m filter ↔ (headerText fm env m filter).length < remain := by
  rcases headerPrinted_fits fm env mem some size m filter count with
    ⟨room, fits⟩ | ⟨reached, outgrown⟩
  · refine iff_of_true ?_ room
    obtain ⟨counted, read⟩ := fits_putsHeader size fits
    constructor
    · exact fits.regions
    · omega
    · rw [counted, read]
    · rw [counted]
      exact fits.clean
  · refine iff_of_false ?_ (Nat.not_lt.mpr reached)
    intro respects
    have within := respects.count
    have noNul := respects.noNul
    rw [putsHeader_eq] at within noNul
    simp only at within noNul
    rcases outgrown with ⟨full, ends⟩ | ⟨n, beyond, le, space⟩
    · rw [full, sizeSub_of_le (Nat.zero_le _) size] at noNul
      rw [noNul (remain - 1) (by omega)] at ends
      cases ends
    · rw [space, sizeSub_of_lt (by omega) (by omega)] at within
      omega

def preOnly (text : List Byte) : TargetFormats := { preFormat := .fromUTF8 text }

theorem putsHeader_respects_short :
    HeaderRespects (preOnly [62]) plainEnv (fun _ => 0) GREASE_MAX_PREFIX_HEADER noMetaData {} ↔
      (headerText (preOnly [62]) plainEnv noMetaData {}).length < GREASE_MAX_PREFIX_HEADER :=
  putsHeader_respects_iff (preOnly [62]) plainEnv (fun _ => 0) (by decide) (by decide) noMetaData {}
    (by decide)

/-- With a format of 200 bytes putsHeader counts 200 bytes. -/
theorem putsHeader_overcounts :
    ¬ HeaderRespects (preOnly (List.replicate 200 62)) plainEnv (fun _ => 0)
      GREASE_MAX_PREFIX_HEADER noMetaData {} := by
  intro respects
  have count := respects.count
  revert count
  decide +kernel

/-! putsFooter -/

/-- Both texts are there when they fit, and neither more bytes than remain are written nor
    counted. -/
structure FooterConcatenates (fm : TargetFormats) (env : WriteEnv) (mem : Mem) (remain : Nat)
    (filter : Filter) : Prop where
  text : (footerText fm env filter).length ≤ remain →
    (putsFooter fm env mem remain filter).1.read (putsFooter fm env mem remain filter).2 =
      footerText fm env filter
  count : (putsFooter fm env mem remain filter).2 ≤ remain
  written : ∀ c ∈ (footerPrinted fm env mem remain filter).calls, c.offset + c.stored.length ≤ remain

/-- There is room for both and a NUL, and the second is not printed over the first; or the
    first leaves nothing for the second. -/
def FooterFits (fm : TargetFormats) (env : WriteEnv) (remain : Nat) (filter : Filter) : Prop :=
  ((footerText fm env filter).length < remain ∧
    (filterFooter env filter = [] ∨ fm.postFormat.length = 0)) ∨
  ((filterFooter env filter).length = remain ∧ (remain = 0 ∨ targetFooter fm env ≠ []))

theorem stored_nul {c : PrintCall} (some : 0 < c.size) (mem : Mem) :
    ∃ i, i ≤ c.text.length ∧ i < c.size ∧ mem.store 0 c.stored i = 0 := by
  have stored : c.stored = c.text.take (c.size - 1) ++ [0] := if_neg (Nat.ne_of_gt some)
  have length : (c.text.take (c.size - 1)).length = min (c.size - 1) c.text.length :=
    List.length_take
  refine ⟨(c.text.take (c.size - 1)).length, by omega, by omega, ?_⟩
  rw [stored]
  exact store_last mem (by rw [List.length_append, List.length_singleton]; omega)

theorem read_stored {c : PrintCall} (room : c.text.length < c.size) (mem : Mem) :
    (mem.store 0 c.stored).read c.text.length = c.text := by
  have read := read_store_behind (show mem.read ([] : List Byte).length = [] from rfl) c.text
  rw [stored_whole room]
  exact read

theorem read_ne_of_nul {mem : Mem} {text : List Byte} (noNul : 0 ∉ text) {i : Nat}
    (inside : i < text.length) (nul : mem i = 0) : mem.read text.length ≠ text := by
  intro same
  have byte := (read_eq_iff mem text).mp same i inside
  exact noNul (nul ▸ byte ▸ List.getElem_mem inside)

section
variable (fm : TargetFormats) (env : WriteEnv) (mem : Mem) {remain : Nat} (filter : Filter)

def firstPrinted (remain : Nat) : Printed :=
  (filterPart env filter.postFormat).foldl (Printed.print fun _ => 0) ⟨mem, remain, []⟩

theorem firstPrinted_spec (size : remain < SIZE_MODULUS) :
    (firstPrinted env mem filter remain).space =
        sizeSub remain (filterFooter env filter).length ∧
      (∀ c ∈ (firstPrinted env mem filter remain).calls, c = ⟨0, remain, filterFooter env filter⟩) ∧
      (filterFooter env filter ≠ [] → (firstPrinted env mem filter remain).mem =
        mem.store 0 (PrintCall.mk 0 remain (filterFooter env filter)).stored) := by
  unfold firstPrinted filterFooter filterPart
  split
  · simp [sizeSub_of_le (Nat.zero_le _) size]
  · simp [Printed.print, snprintf_eq mem ⟨0, remain, _⟩]

theorem footerPrinted_skips (skips : fm.postFormat.length = 0 ∨
      (firstPrinted env mem filter remain).space = 0) :
    footerPrinted fm env mem remain filter = firstPrinted env mem filter remain := by
  unfold footerPrinted targetPart
  rw [List.foldl_append]
  change (List.foldl _ (firstPrinted env mem filter remain) _) = _
  rcases skips with unset | full
  · simp [unset]
  · split
    · simp [Printed.print, full]
    · rfl

theorem footerPrinted_prints (set : 0 < fm.postFormat.length)
    (space : 0 < (firstPrinted env mem filter remain).space) :
    footerPrinted fm env mem remain filter =
      let p := firstPrinted env mem filter remain
      { mem := p.mem.store 0 (PrintCall.mk 0 p.space (targetFooter fm env)).stored
        space := sizeSub p.space (targetFooter fm env).length
        calls := p.calls ++ [⟨0, p.space, targetFooter fm env⟩] } := by
  unfold footerPrinted targetFooter targetPart
  rw [List.foldl_append, if_pos set]
  change (List.foldl _ (firstPrinted env mem filter remain) _) = _
  simp [Printed.print, Nat.ne_of_gt space, snprintf_eq _ ⟨0, _, _⟩]

theorem firstPrinted_written (size : remain < SIZE_MODULUS) :
    ∀ c ∈ (firstPrinted env mem filter remain).calls, c.offset + c.stored.length ≤ remain := by
  intro c mem'
  obtain ⟨_, calls, _⟩ := firstPrinted_spec env mem filter size
  rw [calls c mem', Nat.zero_add]
  exact stored_length_le _

theorem targetFooter_unset (unset : fm.postFormat.length = 0) : targetFooter fm env = [] := by
  simp [targetFooter, targetPart, unset]

theorem firstPrinted_full (size : remain < SIZE_MODULUS)
    (exact : (filterFooter env filter).length = remain) :
    (firstPrinted env mem filter remain).space = 0 := by
  obtain ⟨space, _, _⟩ := firstPrinted_spec env mem filter size
  rw [space, exact, sizeSub_of_le (Nat.le_refl _) size, Nat.sub_self]

/-- The filter's footer has used up the space, and the target's is left out. -/
theorem putsFooter_exact (size : remain < SIZE_MODULUS)
    (exact : (filterFooter env filter).length = remain) :
    putsFooter fm env mem remain filter = ((firstPrinted env mem filter remain).mem, remain) := by
  have full := firstPrinted_full env mem filter size exact
  rw [putsFooter_eq, footerPrinted_skips fm env mem filter (Or.inr full), full,
    sizeSub_of_le (Nat.zero_le _) size, Nat.sub_zero]

theorem footer_exact (size : remain < SIZE_MODULUS) (noNul : 0 ∉ footerText fm env filter)
    (exact : (filterFooter env filter).length = remain) :
    FooterConcatenates fm env mem remain filter ↔ FooterFits fm env remain filter := by
  obtain ⟨space, _, first⟩ := firstPrinted_spec env mem filter size
  have skipped := footerPrinted_skips fm env mem filter
    (Or.inr (firstPrinted_full env mem filter size exact))
  have puts := putsFooter_exact fm env mem filter size exact
  have total : (footerText fm env filter).length = remain + (targetFooter fm env).length := by
    rw [footerText, List.length_append, exact]
  constructor
  · intro meets
    refine Or.inr ⟨exact, ?_⟩
    by_contra both
    obtain ⟨some, blank⟩ := not_or.mp both
    rw [not_not] at blank
    rw [blank, List.length_nil, Nat.add_zero] at total
    have text := meets.text (Nat.le_of_eq total)
    rw [puts] at text
    have present : filterFooter env filter ≠ [] := by
      rw [← List.length_pos_iff]
      omega
    obtain ⟨i, _, inside, nul⟩ := stored_nul
      (show 0 < (PrintCall.mk 0 remain (filterFooter env filter)).size by simp only; omega) mem
    rw [← first present] at nul
    refine read_ne_of_nul noNul (total.symm ▸ inside) nul ?_
    rw [total]
    exact text
  · intro fits
    refine ⟨?_, by rw [puts], by rw [skipped]; exact firstPrinted_written env mem filter size⟩
    intro fit
    rcases fits with ⟨short, _⟩ | ⟨_, zero | blank⟩
    · omega
    · have none : footerText fm env filter = [] := List.length_eq_zero_iff.mp (by omega)
      rw [puts, none, zero]
      rfl
    · have long := List.length_pos_iff.mpr blank
      omega

/-- Otherwise both are counted, whether they fit or not. -/
theorem putsFooter_count (size : remain < SIZE_MODULUS)
    (count : (footerText fm env filter).length < SIZE_MODULUS)
    (inexact : (filterFooter env filter).length ≠ remain) :
    (putsFooter fm env mem remain filter).2 = (footerText fm env filter).length := by
  obtain ⟨space, _, _⟩ := firstPrinted_spec env mem filter size
  have total : (footerText fm env filter).length =
      (filterFooter env filter).length + (targetFooter fm env).length := List.length_append
  rw [putsFooter_eq]
  simp only
  rcases Nat.eq_zero_or_pos fm.postFormat.length with unset | set
  · rw [footerPrinted_skips fm env mem filter (Or.inl unset), space, sizeSub_twice remain (by omega),
      total, targetFooter_unset fm env unset, List.length_nil, Nat.add_zero]
  · have left : 0 < (firstPrinted env mem filter remain).space := by
      rw [space, Nat.pos_iff_ne_zero]
      exact fun none => inexact (eq_of_sizeSub_eq_zero size (by omega) none).symm
    rw [footerPrinted_prints fm env mem filter set left]
    simp only
    rw [space, sizeSub_add, sizeSub_twice remain (by omega), total]

/-- There is a NUL inside what is printed over the filter's footer. -/
theorem footer_text_iff (size : remain < SIZE_MODULUS) (noNul : 0 ∉ footerText fm env filter)
    (inexact : (filterFooter env filter).length ≠ remain)
    (fit : (footerText fm env filter).length ≤ remain) :
    (footerPrinted fm env mem remain filter).mem.read (footerText fm env filter).length =
        footerText fm env filter ↔
      (footerText fm env filter).length < remain ∧
        (filterFooter env filter = [] ∨ fm.postFormat.length = 0) := by
  obtain ⟨space, _, first⟩ := firstPrinted_spec env mem filter size
  have total : (footerText fm env filter).length =
      (filterFooter env filter).length + (targetFooter fm env).length := List.length_append
  rw [sizeSub_of_le (by omega) size] at space
  rcases Nat.eq_zero_or_pos fm.postFormat.length with unset | set
  · have alone : footerText fm env filter = filterFooter env filter := by
      rw [footerText, targetFooter_unset fm env unset, List.append_nil]
    refine iff_of_true ?_ ⟨by rw [alone] at fit ⊢; omega, Or.inr unset⟩
    rw [footerPrinted_skips fm env mem filter (Or.inl unset), alone]
    by_cases blank : filterFooter env filter = []
    · rw [blank]
      rfl
    · rw [first blank]
      exact read_stored (by simp only; omega) mem
  · rw [footerPrinted_prints fm env mem filter set (by omega)]
    simp only
    obtain ⟨i, le, inside, nul⟩ := stored_nul
      (show 0 < (PrintCall.mk 0 (firstPrinted env mem filter remain).space
        (targetFooter fm env)).size by simp only; omega) (firstPrinted env mem filter remain).mem
    by_cases blank : filterFooter env filter = []
    · have alone : footerText fm env filter = targetFooter fm env := by
        rw [footerText, blank, List.nil_append]
      rw [blank, List.length_nil, Nat.sub_zero] at space
      by_cases room : (footerText fm env filter).length < remain
      · refine iff_of_true ?_ ⟨room, Or.inl blank⟩
        rw [alone] at room ⊢
        exact read_stored (by simp only; omega) _
      · refine iff_of_false ?_ (fun fits => room fits.1)
        exact read_ne_of_nul noNul (by simp only at inside; omega) nul
    · refine iff_of_false ?_ (fun fits => fits.2.elim blank (Nat.ne_of_gt set))
      have long := List.length_pos_iff.mpr blank
      exact read_ne_of_nul noNul (by simp only at le; omega) nul

theorem footer_written (size : remain < SIZE_MODULUS)
    (fit : (footerText fm env filter).length ≤ remain) :
    ∀ c ∈ (footerPrinted fm env mem remain filter).calls, c.offset + c.stored.length ≤ remain := by
  obtain ⟨space, _, _⟩ := firstPrinted_spec env mem filter size
  have written := firstPrinted_written env mem filter size
  rw [footerText, List.length_append] at fit
  rw [sizeSub_of_le (by omega) size] at space
  by_cases prints : 0 < fm.postFormat.length ∧ 0 < (firstPrinted env mem filter remain).space
  · rw [footerPrinted_prints fm env mem filter prints.1 prints.2]
    intro c listed
    rcases List.mem_append.mp listed with old | new
    · exact written c old
    · rw [List.mem_singleton.mp new, Nat.zero_add]
      exact (stored_length_le _).trans (by simp only; omega)
  · rw [footerPrinted_skips fm env mem filter (by omega)]
    exact written

theorem putsFooter_concatenates_iff (size : remain < SIZE_MODULUS)
    (count : (footerText fm env filter).length < SIZE_MODULUS)
    (noNul : 0 ∉ footerText fm env filter) :
    FooterConcatenates fm env mem remain filter ↔ FooterFits fm env remain filter := by
  by_cases exact : (filterFooter env filter).length = remain
  · exact footer_exact fm env mem filter size noNul exact
  · have counted := putsFooter_count fm env mem filter size count exact
    have fits : FooterFits fm env remain filter ↔ (footerText fm env filter).length < remain ∧
        (filterFooter env filter = [] ∨ fm.postFormat.length = 0) :=
      or_iff_left fun full => exact full.1
    rw [fits]
    by_cases fit : (footerText fm env filter).length ≤ remain
    · rw [← footer_text_iff fm env mem filter size noNul exact fit, ← counted]
      constructor
      · intro meets
        have text := meets.text fit
        rwa [putsFooter_eq] at text ⊢
      · intro text
        refine ⟨fun _ => ?_, counted ▸ fit, footer_written fm env mem filter size fit⟩
        rwa [putsFooter_eq] at text ⊢
    · refine iff_of_false ?_ (fun short => fit (Nat.le_of_lt short.1))
      intro meets
      exact fit (counted ▸ meets.count)

end

def LogTarget.footerSpace (t : LogTarget) (env : WriteEnv) (m : LogMeta) (filter : Filter) : Nat :=
  sizeSub GREASE_MAX_PREFIX_HEADER (t.header env m filter).length

theorem footer_whole_iff (t : LogTarget) (env : WriteEnv) (m : LogMeta) (filter : Filter)
    (count : (footerText t.formats env filter).length < SIZE_MODULUS)
    (noNul : 0 ∉ footerText t.formats env filter)
    (fit : (footerText t.formats env filter).length ≤ t.footerSpace env m filter) :
    t.footer env m filter = footerText t.formats env filter ↔
      FooterFits t.formats env (t.footerSpace env m filter) filter := by
  have size : t.footerSpace env m filter < SIZE_MODULUS := sizeSub_lt _ _
  rw [← putsFooter_concatenates_iff t.formats env env.footerMem filter size count noNul]
  constructor
  · intro whole
    have length := congrArg List.length whole
    simp only [LogTarget.footer, mem_read_length] at length
    exact ⟨fun _ => whole, length ▸ fit, footer_written t.formats env env.footerMem filter size fit⟩
  · intro meets
    exact meets.text fit

/-- The footers of write() and of writeOverflow() are whole under the same condition. -/
theorem putsFooter_meets_iff (fm : TargetFormats) (env : WriteEnv) (filter : Filter)
    (count : (footerText fm env filter).length < SIZE_MODULUS) (noNul : 0 ∉ footerText fm env filter) :
    (∀ (mem : Mem) (remain : Nat), remain < SIZE_MODULUS →
      (FooterConcatenates fm env mem remain filter ↔ FooterFits fm env remain filter)) ∧
    ∀ (t : LogTarget) (m : LogMeta), t.formats = fm →
      (footerText fm env filter).length ≤ t.footerSpace env m filter →
      (t.footer env m filter = footerText fm env filter ↔
        FooterFits fm env (t.footerSpace env m filter) filter) := by
  constructor
  · intro mem remain size
    exact putsFooter_concatenates_iff fm env mem filter size count noNul
  · intro t m formats fit
    subst formats
    exact footer_whole_iff t env m filter count noNul fit

def postOnly (text : List Byte) : TargetFormats := { postFormat := .fromUTF8 text }

theorem putsFooter_meets_alone :
    FooterConcatenates (postOnly [60]) plainEnv (fun _ => 0) GREASE_MAX_PREFIX_HEADER {} ↔
      FooterFits (postOnly [60]) plainEnv GREASE_MAX_PREFIX_HEADER {} :=
  (putsFooter_meets_iff (postOnly [60]) plainEnv {} (by decide) (by decide)).1 (fun _ => 0)
    GREASE_MAX_PREFIX_HEADER (by decide)

/-- With a footer of the filter and one of the target, the second is printed over the first. -/
theorem putsFooter_overprints :
    ¬ FooterConcatenates (postOnly [60]) plainEnv (fun _ => 0) GREASE_MAX_PREFIX_HEADER
      { postFormat := .fromUTF8 [62] } := by
  intro meets
  have text := meets.text (by decide)
  revert text
  decide

end GreaseLog
