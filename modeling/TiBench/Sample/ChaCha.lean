import TiBench.Bytes

/-!
# ChaCha stream with eight rounds

The ChaCha block function with eight rounds, a 64 bit block counter and a stream number of zero,
and the expansion of a 64 bit seed to a key.
-/

namespace TiBench.Sample.ChaCha

/-- Sixteen words. -/
abbrev State := Vector UInt32 16

/-- A word rotated to the left. -/
def rotate (w k : UInt32) : UInt32 := w <<< k ||| w >>> (32 - k)

/-- Mixes the words at four places. -/
def quarterRound (s : State) (a b c d : Fin 16) : State :=
  let s := s.set a (s[a] + s[b])
  let s := s.set d (rotate (s[d] ^^^ s[a]) 16)
  let s := s.set c (s[c] + s[d])
  let s := s.set b (rotate (s[b] ^^^ s[c]) 12)
  let s := s.set a (s[a] + s[b])
  let s := s.set d (rotate (s[d] ^^^ s[a]) 8)
  let s := s.set c (s[c] + s[d])
  s.set b (rotate (s[b] ^^^ s[c]) 7)

/-- Mixes the four columns, then the four diagonals. -/
def doubleRound (s : State) : State :=
  let s := quarterRound s 0 4 8 12
  let s := quarterRound s 1 5 9 13
  let s := quarterRound s 2 6 10 14
  let s := quarterRound s 3 7 11 15
  let s := quarterRound s 0 5 10 15
  let s := quarterRound s 1 6 11 12
  let s := quarterRound s 2 7 8 13
  quarterRound s 3 4 9 14

/-- The words of a key. -/
abbrev Key := Vector UInt32 8

/-- The state before the rounds: four constant words, the key, the counter and the stream. -/
def initial (key : Key) (counter : UInt64) : State :=
  let constants : Vector UInt32 4 := #v[0x61707865, 0x3320646e, 0x79622d32, 0x6b206574]
  let place : Vector UInt32 4 := #v[counter.toUInt32, (counter >>> 32).toUInt32, 0, 0]
  constants ++ key ++ place

/-- A word as bytes, the low one first. -/
def wordBytes (w : UInt32) : Bytes :=
  [w.toUInt8, (w >>> 8).toUInt8, (w >>> 16).toUInt8, (w >>> 24).toUInt8]

/-- The sixty-four bytes for one value of the counter. -/
def block (key : Key) (counter : Nat) : Bytes :=
  let start := initial key (UInt64.ofNat counter)
  let mixed := doubleRound (doubleRound (doubleRound (doubleRound start)))
  (mixed.zipWith (· + ·) start).toList.flatMap wordBytes

/-- The bytes in one block. -/
def blockSize : Nat := 64

/-- The first `size` bytes of the stream of a key. -/
def stream (key : Key) (size : Nat) : Bytes :=
  ((List.range ((size + blockSize - 1) / blockSize)).flatMap (block key)).take size

/-- The generator that expands a seed: a step of its state. -/
def seedStep (state : UInt64) : UInt64 := state * 6364136223846793005 + 11634580027462260723

/-- The word that a state of that generator gives: its high bits, rotated by its highest. -/
def seedWord (state : UInt64) : UInt32 :=
  let w := (((state >>> 18) ^^^ state) >>> 27).toUInt32
  let k := (state >>> 59).toUInt32
  w >>> k ||| w <<< ((32 - k) % 32)

/-- The key of a seed. -/
def keyOfSeed (seed : UInt64) : Key :=
  let s0 := seedStep seed
  let s1 := seedStep s0
  let s2 := seedStep s1
  let s3 := seedStep s2
  let s4 := seedStep s3
  let s5 := seedStep s4
  let s6 := seedStep s5
  let s7 := seedStep s6
  #v[s0, s1, s2, s3, s4, s5, s6, s7].map seedWord

end TiBench.Sample.ChaCha
