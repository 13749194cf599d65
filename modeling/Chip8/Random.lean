import Chip8.Sixteen

/-!
The stream of random numbers that a guest program sees. It is the key stream of the ChaCha cipher with
twelve rounds, under a key that is drawn from a seed; nothing but the key and the number of words
already taken is kept.
-/

namespace Chip8

structure Random where
  key : Vector UInt32 8
  /-- How many words of the stream were taken. -/
  position : Nat
  deriving DecidableEq, Repr

namespace Random

/-! ### The key -/

/-- The congruential generator that draws a key from a seed. -/
def advance (s : UInt64) : UInt64 := s * 6364136223846793005 + 11634580027462260723

def rotateRight (x : UInt32) (count : UInt32) : UInt32 :=
  x >>> count ||| x <<< (32 - count)

/-- The word that a state of the generator gives. -/
def output (s : UInt64) : UInt32 :=
  rotateRight (((s >>> 18) ^^^ s) >>> 27).toUInt32 (s >>> 59).toUInt32

/-- The states after a seed. -/
def states : (count : Nat) → UInt64 → List UInt64
  | 0, _ => []
  | count + 1, s => advance s :: states count (advance s)

/-- The key that a seed stands for. -/
def keyOf (seed : UInt64) : Vector UInt32 8 :=
  Vector.ofFn fun k => output ((states 8 seed).getD k.val 0)

/-! ### The cipher -/

def rotateLeft (x : UInt32) (count : UInt32) : UInt32 :=
  x <<< count ||| x >>> (32 - count)

abbrev Block := Vector UInt32 16

/-- One mixing of four words of a block. -/
def quarterRound (a b c d : Fin 16) (s : Block) : Block :=
  let s := s.set a (s[a] + s[b])
  let s := s.set d (rotateLeft (s[d] ^^^ s[a]) 16)
  let s := s.set c (s[c] + s[d])
  let s := s.set b (rotateLeft (s[b] ^^^ s[c]) 12)
  let s := s.set a (s[a] + s[b])
  let s := s.set d (rotateLeft (s[d] ^^^ s[a]) 8)
  let s := s.set c (s[c] + s[d])
  s.set b (rotateLeft (s[b] ^^^ s[c]) 7)

/-- Two rounds: the columns of the block, then its diagonals. -/
def doubleRound (s : Block) : Block :=
  let s := quarterRound 0 4 8 12 s
  let s := quarterRound 1 5 9 13 s
  let s := quarterRound 2 6 10 14 s
  let s := quarterRound 3 7 11 15 s
  let s := quarterRound 0 5 10 15 s
  let s := quarterRound 1 6 11 12 s
  let s := quarterRound 2 7 8 13 s
  quarterRound 3 4 9 14 s

/-- The words with which block `counter` of the stream begins. -/
def initial (key : Vector UInt32 8) (counter : UInt64) : Block :=
  #v[0x61707865, 0x3320646e, 0x79622d32, 0x6b206574,
     key[0], key[1], key[2], key[3], key[4], key[5], key[6], key[7],
     counter.toUInt32, (counter >>> 32).toUInt32, 0, 0]

/-- Block `counter` of the stream: twelve rounds, and the first words added again. -/
def block (key : Vector UInt32 8) (counter : UInt64) : Block :=
  let first := initial key counter
  let mixed := (List.range 6).foldl (fun s _ => doubleRound s) first
  Vector.zipWith (· + ·) mixed first

/-! ### The stream -/

/-- Word `k` of the stream under a key. -/
def word (key : Vector UInt32 8) (k : Nat) : UInt32 :=
  have := mod_sixteen_lt k
  (block key (UInt64.ofNat (k / 16)))[k % 16]

/-- The stream of a seed, from its start. -/
def ofSeed (seed : UInt64) : Random := ⟨keyOf seed, 0⟩

/-- Takes a word and gives its lowest byte. -/
def next (r : Random) : UInt8 × Random :=
  ((word r.key r.position).toUInt8, { r with position := r.position + 1 })

end Random
end Chip8
