import GreaseLog.Meta

/- Labels and the two C library calls that render them. What a format and its
   arguments print is a parameter; how snprintf stores it is C99. -/
namespace GreaseLog

/-- logLabel: none is a NULL base, otherwise the bytes of the allocation. -/
abbrev LogLabel := Option (List Byte)

def LogLabel.length (l : LogLabel) : Nat := (l.getD []).length

def LogLabel.empty (l : LogLabel) : Bool := l.isNone

def LogLabel.text (l : LogLabel) : List Byte := (l.getD []).takeWhile (· != 0)

/-- fromUTF8 and setUTF8 allocate one byte more than the string, all zero. -/
def LogLabel.fromUTF8 (s : List Byte) : LogLabel := some (s ++ [0])

inductive FormatArg where
  | string : List Byte → FormatArg
  | number : Nat → FormatArg

abbrev Formatter := List Byte → List FormatArg → List Byte

def asciiDigits (n : Nat) : List Byte := (Nat.toDigits 10 n).map fun c => c.toNat.toUInt8

/-- The conversions the documentation of addTarget uses: %s, %d, %ld and %%. -/
def printfText : Formatter
  | 37 :: 37 :: rest, args => 37 :: printfText rest args
  | 37 :: 115 :: rest, .string s :: args => s ++ printfText rest args
  | 37 :: 100 :: rest, .number n :: args => asciiDigits n ++ printfText rest args
  | 37 :: 108 :: 100 :: rest, .number n :: args => asciiDigits n ++ printfText rest args
  | c :: rest, args => c :: printfText rest args
  | [], _ => []

/-- Memory seen from the start of a buffer, and past its end. -/
abbrev Mem := Nat → Byte

def Mem.store (mem : Mem) (offset : Nat) (bytes : List Byte) : Mem :=
  fun i => if offset ≤ i then bytes.getD (i - offset) (mem i) else mem i

def Mem.read (mem : Mem) (n : Nat) : List Byte := (List.range n).map mem

/-- snprintf(mem + offset, size, ...): at most size - 1 bytes and a NUL. The
    value it returns is the length of the whole text. -/
def snprintf (mem : Mem) (offset size : Nat) (text : List Byte) : Mem :=
  if size = 0 then mem else mem.store offset (text.take (size - 1) ++ [0])

def SIZE_MODULUS : Nat := 2 ^ 64

def sizeSub (a b : Nat) : Nat := (a + (SIZE_MODULUS - b % SIZE_MODULUS)) % SIZE_MODULUS

@[simp] theorem mem_read_length (mem : Mem) (n : Nat) : (mem.read n).length = n := by
  simp [Mem.read]

example : printfText [91, 37, 108, 100, 93] [.number 42] = [91, 52, 50, 93] := by decide

end GreaseLog
