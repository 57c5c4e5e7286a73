/-
The random numbers of a seed: the ChaCha stream with 20 rounds under a key that is expanded from the
seed. The stream is a sequence of 64-bit numbers, each made of two words of it, the low one first.
-/

namespace ControlPlane.Random

/-! ## The key of a seed -/

/-- The next state of the key expansion. -/
def advanceSeed (state : UInt64) : UInt64 := state * 6364136223846793005 + 11634580027462260723

/-- A word rotated to the right. -/
def rotateRight (x : UInt32) (count : UInt32) : UInt32 :=
  (x >>> count) ||| (x <<< ((32 - count) % 32))

/-- The word of the key that a state of the expansion gives. -/
def keyWord (state : UInt64) : UInt32 :=
  rotateRight (((state >>> 18) ^^^ state) >>> 27).toUInt32 (state >>> 59).toUInt32

/-- The first `count` words of the key expanded from a state. -/
def keyWords : (count : Nat) → UInt64 → List UInt32
  | 0, _ => []
  | count + 1, state =>
    let state := advanceSeed state
    keyWord state :: keyWords count state

/-! ## Blocks -/

/-- The words that a block is made from. -/
abbrev Block := Vector UInt32 16

/-- A word rotated to the left. -/
def rotateLeft (x : UInt32) (count : UInt32) : UInt32 :=
  (x <<< count) ||| (x >>> (32 - count))

/-- The quarter round on four of the words. -/
def quarterRound (b : Block) (i j k l : Fin 16) : Block :=
  let b := b.set i (b[i] + b[j])
  let b := b.set l (rotateLeft (b[l] ^^^ b[i]) 16)
  let b := b.set k (b[k] + b[l])
  let b := b.set j (rotateLeft (b[j] ^^^ b[k]) 12)
  let b := b.set i (b[i] + b[j])
  let b := b.set l (rotateLeft (b[l] ^^^ b[i]) 8)
  let b := b.set k (b[k] + b[l])
  b.set j (rotateLeft (b[j] ^^^ b[k]) 7)

/-- A round on the columns and a round on the diagonals. -/
def doubleRound (b : Block) : Block :=
  let b := quarterRound b 0 4 8 12
  let b := quarterRound b 1 5 9 13
  let b := quarterRound b 2 6 10 14
  let b := quarterRound b 3 7 11 15
  let b := quarterRound b 0 5 10 15
  let b := quarterRound b 1 6 11 12
  let b := quarterRound b 2 7 8 13
  quarterRound b 3 4 9 14

/-- The words before the rounds: a constant, the key, and the number of the block. -/
def initialBlock (key : List UInt32) (number : UInt64) : Block :=
  let constants : List UInt32 := [0x61707865, 0x3320646e, 0x79622d32, 0x6b206574]
  let words := constants ++ key ++ [number.toUInt32, (number >>> 32).toUInt32, 0, 0]
  Vector.ofFn fun i => words.getD i 0

/-- The words of the stream that a block gives. -/
def blockWords (key : List UInt32) (number : UInt64) : List UInt32 :=
  let b := initialBlock key number
  ((List.range 10).foldl (fun b _ => doubleRound b) b).zipWith (· + ·) b |>.toList

/-- The numbers that pairs of words make, the low word first. -/
def pairWords : List UInt32 → List UInt64
  | low :: high :: words => (high.toUInt64 <<< 32 ||| low.toUInt64) :: pairWords words
  | _ => []

/-! ## The stream -/

/-- A stream of random numbers. -/
structure Stream where
  key : List UInt32
  /-- The number of the next block. -/
  block : UInt64
  /-- The numbers of the last block that are left. -/
  left : List UInt64

namespace Stream

/-- The stream of a seed. -/
def ofSeed (seed : UInt64) : Stream := ⟨keyWords 8 seed, 0, []⟩

/-- The next number, and the stream after it. -/
def next (s : Stream) : UInt64 × Stream :=
  match s.left with
  | n :: left => (n, { s with left })
  | [] =>
    match pairWords (blockWords s.key s.block) with
    | n :: left => (n, { s with block := s.block + 1, left })
    | [] => (0, { s with block := s.block + 1 })

end Stream

end ControlPlane.Random
