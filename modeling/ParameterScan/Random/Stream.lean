import ParameterScan.Scalar

/-!
# A seeded stream of random numbers

The words of the ChaCha block function with twelve rounds, under a key that is spread from a seed of
64 bits, with a 64-bit block counter from zero and nothing else in the input. Two words make a draw
of 64 bits, the low one first. `uniform` takes the upper 52 bits of a draw to the interval from -1
up to 1.
-/
namespace ParameterScan.Random

def rotateLeft (x : UInt32) (k : UInt32) : UInt32 := x <<< k ||| x >>> (32 - k)

/-- The sixteen words that a block is made from. -/
abbrev Words := Vector UInt32 16

def quarterRound (a b c d : Fin 16) (w : Words) : Words :=
  let wa := w[a] + w[b]
  let wd := rotateLeft (w[d] ^^^ wa) 16
  let wc := w[c] + wd
  let wb := rotateLeft (w[b] ^^^ wc) 12
  let wa := wa + wb
  let wd := rotateLeft (wd ^^^ wa) 8
  let wc := wc + wd
  let wb := rotateLeft (wb ^^^ wc) 7
  (((w.set a wa).set b wb).set c wc).set d wd

/-- A round on the columns and one on the diagonals. -/
def doubleRound (w : Words) : Words :=
  let w := quarterRound 0 4 8 12 w
  let w := quarterRound 1 5 9 13 w
  let w := quarterRound 2 6 10 14 w
  let w := quarterRound 3 7 11 15 w
  let w := quarterRound 0 5 10 15 w
  let w := quarterRound 1 6 11 12 w
  let w := quarterRound 2 7 8 13 w
  quarterRound 3 4 9 14 w

abbrev Key := Vector UInt32 8

/-- Constants, key, block counter and a nonce of zero. -/
def initialWords (key : Key) (block : UInt64) : Words :=
  (#v[0x61707865, 0x3320646e, 0x79622d32, 0x6b206574] : Vector UInt32 4) ++ key
    ++ (#v[block.toUInt32, (block >>> 32).toUInt32, 0, 0] : Vector UInt32 4)

/-- The words of one block after six double rounds. -/
def blockWords (key : Key) (block : UInt64) : List UInt32 :=
  let start := initialWords key block
  let mixed := (List.range 6).foldl (fun w _ => doubleRound w) start
  List.zipWith (· + ·) mixed.toList start.toList

/-- The next state of the generator that spreads a seed over a key. -/
def spread (state : UInt64) : UInt64 :=
  state * 6364136223846793005 + 11634580027462260723

def spreadWord (state : UInt64) : UInt32 :=
  let mixed := (((state >>> 18) ^^^ state) >>> 27).toUInt32
  let turn := (state >>> 59).toUInt32
  mixed >>> turn ||| mixed <<< (0 - turn)

def spreadAfter (seed : UInt64) : Nat → UInt64
  | 0 => seed
  | n + 1 => spread (spreadAfter seed n)

def keyOfSeed (seed : UInt64) : Key :=
  Vector.ofFn fun i => spreadWord (spreadAfter seed (i.val + 1))

/-- A place in the stream of a key: the words left of the current block and the next block. -/
structure Stream where
  key : Key
  block : UInt64
  pending : List UInt32

def Stream.ofSeed (seed : UInt64) : Stream := ⟨keyOfSeed seed, 0, []⟩

/-- The next 64 bits. A block is an even number of words, so a draw never spans two. -/
def Stream.draw (s : Stream) : UInt64 × Stream :=
  match s.pending with
  | low :: high :: rest => (low.toUInt64 ||| high.toUInt64 <<< 32, { s with pending := rest })
  | _ =>
      match blockWords s.key s.block with
      | low :: high :: rest =>
          (low.toUInt64 ||| high.toUInt64 <<< 32, ⟨s.key, s.block + 1, rest⟩)
      | _ => (0, s)

variable {α : Type} [Scalar α]

/-- The number in `[-1, 1)` that a draw stands for. -/
def ofDraw (bits : UInt64) : α :=
  Scalar.ofNat (bits >>> 12).toNat / Scalar.ofNat (Nat.pow 2 52) * 2 + -1

def uniform (s : Stream) : α × Stream :=
  let (bits, s) := s.draw
  (ofDraw bits, s)

end ParameterScan.Random
