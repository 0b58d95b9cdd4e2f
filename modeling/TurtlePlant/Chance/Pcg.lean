/-!
# Seeded generators

A permuted congruential generator with 128 bits of state and 64 bits of output (XSL-RR), seeded by hashing a natural
number of any size into 256 bits.

- `Pcg.ofSeed`: the generator of a seed;
- `Pcg.next`: the next 64 bits and the generator after them;
- `Pcg.nextUnit`: the next 53 bits, a numerator over `2 ^ 53`.
-/

namespace TurtlePlant

/-- A 32-bit word. -/
abbrev Word32 := BitVec 32

namespace SeedHash

/-- The words of a natural number, the lowest first; one zero word for zero. -/
def words (n : Nat) : List Word32 :=
  if h : n < 4294967296 then [BitVec.ofNat 32 n] else BitVec.ofNat 32 n :: words (n / 4294967296)
termination_by n
decreasing_by omega

/-- A word folded onto its upper half. -/
def fold (v : Word32) : Word32 := v ^^^ (v >>> 16)

/-- A word hashed with a running multiplier, and the next multiplier. -/
def hash (step h v : Word32) : Word32 × Word32 :=
  let h' := h * step
  (fold ((v ^^^ h) * h'), h')

/-- Two words mixed into one. -/
def mix (x y : Word32) : Word32 := fold (0xca01f9dd#32 * x - 0x4973f715#32 * y)

/-- The pool of four words that a seed is hashed into, with the running multiplier. -/
structure Pool where
  words : Vector Word32 4
  multiplier : Word32

/-- The first multiplier and the step of multipliers for filling the pool. -/
def fillStart : Word32 := 0x43b0d7e5#32

/-- The step of multipliers for filling the pool. -/
def fillStep : Word32 := 0x931e8875#32

/-- A word mixed into one place of the pool. -/
def Pool.absorb (p : Pool) (d : Fin 4) (v : Word32) : Pool :=
  let (hashed, multiplier) := hash fillStep p.multiplier v
  ⟨p.words.set d (mix p.words[d] hashed), multiplier⟩

/-- A word hashed into one place of the pool. -/
def Pool.fill (p : Pool) (d : Fin 4) (v : Word32) : Pool :=
  let (hashed, multiplier) := hash fillStep p.multiplier v
  ⟨p.words.set d hashed, multiplier⟩

/-- The four places. -/
def places : List (Fin 4) := [0, 1, 2, 3]

/-- The pool of a seed: the first four words are hashed into their places, every place is mixed into every other, and
each further word is mixed into all places. -/
def pool (seed : Nat) : Pool :=
  let ws := words seed
  let filled := places.foldl (fun p d => p.fill d (ws.getD d 0)) ⟨.replicate 4 0, fillStart⟩
  let mixed := places.foldl (fun p s =>
    (places.filter (· ≠ s)).foldl (fun p d => p.absorb d p.words[s]) p) filled
  (ws.drop 4).foldl (fun p v => places.foldl (fun p d => p.absorb d v) p) mixed

/-- The first multiplier for drawing words from the pool. -/
def drawStart : Word32 := 0x8b51f9dd#32

/-- The step of multipliers for drawing words from the pool. -/
def drawStep : Word32 := 0x58f38ded#32

/-- The given number of words drawn from the pool, going round its places from place `i`. -/
def Pool.draw (p : Pool) : Nat → Nat → Word32 → List Word32
  | 0, _, _ => []
  | n + 1, i, h =>
    let (w, h') := hash drawStep h p.words[i % 4]
    w :: p.draw n (i + 1) h'

end SeedHash

/-- A generator: its state, and the increment that tells one stream from another. -/
structure Pcg where
  state : BitVec 128
  /-- The increment, an odd number. -/
  increment : BitVec 128
  deriving DecidableEq

namespace Pcg

/-- The multiplier of the state. -/
def multiplier : BitVec 128 := 0x2360ed051fc65da44385df649fccf645#128

/-- One step of the state. -/
def step (g : Pcg) : Pcg := { g with state := g.state * multiplier + g.increment }

/-- Four words, each pair with its lower word first and the upper pair first, as one number. -/
def join : List Word32 → BitVec 128
  | [a, b, c, d] => (b ++ a) ++ (d ++ c)
  | _ => 0

/-- The generator of a seed. -/
def ofSeed (seed : Nat) : Pcg :=
  let ws := (SeedHash.pool seed).draw 8 0 SeedHash.drawStart
  let increment := (join (ws.drop 4) <<< 1) ||| 1
  step ⟨increment + join (ws.take 4), increment⟩

/-- The next 64 bits: the two halves of the stepped state combined and rotated by its six highest bits. -/
def next (g : Pcg) : BitVec 64 × Pcg :=
  let g' := g.step
  let folded := g'.state.extractLsb' 64 64 ^^^ g'.state.setWidth 64
  (folded.rotateRight (g'.state >>> 122).toNat, g')

/-- The next 53 bits, a numerator over `2 ^ 53`. -/
def nextUnit (g : Pcg) : Nat × Pcg :=
  let (bits, g') := g.next
  ((bits >>> 11).toNat, g')

end Pcg

end TurtlePlant
