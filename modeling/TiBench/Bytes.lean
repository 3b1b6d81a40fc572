import TiBench.Pieces

/-!
# Byte strings

Byte strings of any length and their sizes, the words inside them, and blocks, whose length is part
of their type.
-/

namespace TiBench

/-- A byte string. -/
abbrev Bytes := List UInt8

/-- The sum of two sizes or offsets. They have sixty-four bits, so that it wraps around. -/
def sizeSum (a b : Nat) : Nat := (a + b) % UInt64.size

theorem sizeSum_of_lt {a b : Nat} (h : a + b < UInt64.size) : sizeSum a b = a + b :=
  Nat.mod_eq_of_lt h

theorem sizeSum_add (a b c : Nat) : sizeSum (a + b) c = sizeSum a (b + c) := by
  rw [sizeSum, sizeSum, Nat.add_assoc]

namespace Bytes

/-- A word with its high byte first. -/
def ofWordBE (w : UInt16) : Bytes := [(w >>> 8).toUInt8, w.toUInt8]

/-- A word with its low byte first. -/
def ofWordLE (w : UInt16) : Bytes := [w.toUInt8, (w >>> 8).toUInt8]

/-- The word with these high and low bytes. -/
def word (high low : UInt8) : UInt16 := high.toUInt16 <<< 8 ||| low.toUInt16

/-- The words of a byte string, high byte first. An odd byte at the end is left out. -/
def wordsBE : Bytes → List UInt16
  | high :: low :: rest => word high low :: wordsBE rest
  | _ => []

/-- `b` cut off or filled up with `pad` to exactly `n` bytes. -/
def fit (pad : UInt8) (n : Nat) (b : Bytes) : Bytes :=
  b.take n ++ List.replicate (n - b.length) pad

@[simp] theorem length_fit (pad : UInt8) (n : Nat) (b : Bytes) : (fit pad n b).length = n := by
  simp only [fit, List.length_append, List.length_take, List.length_replicate]
  omega

end Bytes

/-- Exactly `n` bytes. -/
structure Block (n : Nat) where
  bytes : Bytes
  length_eq : bytes.length = n
deriving DecidableEq

namespace Block

variable {m n : Nat}

@[ext] theorem ext {a b : Block n} (h : a.bytes = b.bytes) : a = b := by
  cases a; cases b; cases h; rfl

/-- `b` cut off or filled up with `pad` to `n` bytes. -/
def fit (pad : UInt8) (n : Nat) (b : Bytes) : Block n := ⟨b.fit pad n, Bytes.length_fit pad n b⟩

/-- `n` zero bytes. -/
def zero (n : Nat) : Block n := ⟨List.replicate n 0, List.length_replicate⟩

/-- The byte at an offset, zero if that is outside the block. -/
def byte (b : Block n) (off : Nat) : UInt8 := b.bytes.getD off 0

/-- The big endian word at an offset. -/
def wordBE (b : Block n) (off : Nat) : UInt16 := Bytes.word (b.byte off) (b.byte (off + 1))

/-- The little endian word at an offset. -/
def wordLE (b : Block n) (off : Nat) : UInt16 := Bytes.word (b.byte (off + 1)) (b.byte off)

/-- The `len` bytes from an offset on; those outside the block are zero. -/
def slice (b : Block n) (off len : Nat) : Block len := fit 0 len (b.bytes.drop off)

theorem bytes_slice (b : Block n) {off len : Nat} (h : off + len ≤ n) :
    (b.slice off len).bytes = (b.bytes.drop off).take len := by
  have hn : len - (b.bytes.drop off).length = 0 := by
    rw [List.length_drop, b.length_eq]
    omega
  simp only [slice, fit, Bytes.fit, hn, List.replicate_zero, List.append_nil]

end Block

/-- The bytes in one sector. -/
def sectorSize : Nat := 256

/-- The unit in which volumes are read and written. -/
abbrev Sector := Block sectorSize

end TiBench
