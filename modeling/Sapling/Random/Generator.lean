/-!
Generators of random words: the keystream of the ChaCha cipher with twelve rounds, from a key that a 64-bit
seed is expanded to.
-/
namespace Sapling

/-! ## Keystreams

The keystream of the ChaCha cipher with twelve rounds, an endless sequence of words for each key, and
the expansion of a 64-bit seed into a key.
-/

namespace Random

/-- The eight secret words. -/
structure Key where
  k0 : UInt32
  k1 : UInt32
  k2 : UInt32
  k3 : UInt32
  k4 : UInt32
  k5 : UInt32
  k6 : UInt32
  k7 : UInt32
deriving DecidableEq, Repr

/-- The key made of the first eight words of a sequence. -/
def Key.ofWords (word : Nat → UInt32) : Key :=
  ⟨word 0, word 1, word 2, word 3, word 4, word 5, word 6, word 7⟩

def rotateLeft (x : UInt32) (n : UInt32) : UInt32 := (x <<< n) ||| (x >>> (32 - n))

def rotateRight (x : UInt32) (n : UInt32) : UInt32 := (x >>> n) ||| (x <<< (32 - n))

/-! ### Blocks -/

/-- Four words that a quarter round mixes. -/
structure Quarter where
  a : UInt32
  b : UInt32
  c : UInt32
  d : UInt32

/-- Adds, exclusive-ors and rotates each word once in every half. -/
@[inline] def Quarter.round (q : Quarter) : Quarter :=
  let a := q.a + q.b
  let d := rotateLeft (q.d ^^^ a) 16
  let c := q.c + d
  let b := rotateLeft (q.b ^^^ c) 12
  let a := a + b
  let d := rotateLeft (d ^^^ a) 8
  let c := c + d
  let b := rotateLeft (b ^^^ c) 7
  ⟨a, b, c, d⟩

/-- The sixteen words of a block, in four rows. -/
structure Block where
  r0 : Quarter
  r1 : Quarter
  r2 : Quarter
  r3 : Quarter

namespace Block

/-- The starting block: four constants, the key, and the number of the block in two words. -/
def start (key : Key) (number : Nat) : Block where
  r0 := ⟨0x61707865, 0x3320646e, 0x79622d32, 0x6b206574⟩
  r1 := ⟨key.k0, key.k1, key.k2, key.k3⟩
  r2 := ⟨key.k4, key.k5, key.k6, key.k7⟩
  r3 := ⟨UInt32.ofNat number, UInt32.ofNat (number / UInt32.size), 0, 0⟩

/-- Mixes the four columns, then the four diagonals. -/
def doubleRound (s : Block) : Block :=
  let p := Quarter.round ⟨s.r0.a, s.r1.a, s.r2.a, s.r3.a⟩
  let q := Quarter.round ⟨s.r0.b, s.r1.b, s.r2.b, s.r3.b⟩
  let r := Quarter.round ⟨s.r0.c, s.r1.c, s.r2.c, s.r3.c⟩
  let t := Quarter.round ⟨s.r0.d, s.r1.d, s.r2.d, s.r3.d⟩
  let u := Quarter.round ⟨p.a, q.b, r.c, t.d⟩
  let v := Quarter.round ⟨q.a, r.b, t.c, p.d⟩
  let w := Quarter.round ⟨r.a, t.b, p.c, q.d⟩
  let x := Quarter.round ⟨t.a, p.b, q.c, r.d⟩
  ⟨⟨u.a, v.a, w.a, x.a⟩, ⟨x.b, u.b, v.b, w.b⟩, ⟨w.c, x.c, u.c, v.c⟩, ⟨v.d, w.d, x.d, u.d⟩⟩

def addRow (x y : Quarter) : Quarter := ⟨x.a + y.a, x.b + y.b, x.c + y.c, x.d + y.d⟩

/-- The block with a number, mixed six times and added to where it started. -/
def ofKey (key : Key) (number : Nat) : Block :=
  let first := start key number
  let last := Nat.repeat doubleRound 6 first
  ⟨addRow last.r0 first.r0, addRow last.r1 first.r1, addRow last.r2 first.r2, addRow last.r3 first.r3⟩

/-- A word by its place in the block, counted from zero. -/
def get (s : Block) (i : Nat) : UInt32 :=
  let row := if i < 4 then s.r0 else if i < 8 then s.r1 else if i < 12 then s.r2 else s.r3
  match i % 4 with
  | 0 => row.a
  | 1 => row.b
  | 2 => row.c
  | _ => row.d

end Block

/-- The word of a key's stream at a position. -/
def Key.word (key : Key) (position : Nat) : UInt32 :=
  (Block.ofKey key (position / 16)).get (position % 16)

/-! ### Seeds -/

/-- The next state of the linear congruence that spreads a seed. -/
def spread (state : UInt64) : UInt64 := state * 6364136223846793005 + 11634580027462260723

/-- The word that a state gives: a middle part, rotated by the topmost bits. -/
def permute (state : UInt64) : UInt32 :=
  rotateRight (((state >>> 18) ^^^ state) >>> 27).toUInt32 (state >>> 59).toUInt32

/-- The key of a seed: one word from each of the eight states that follow it. -/
def Key.ofSeed (seed : UInt64) : Key :=
  Key.ofWords fun i => permute (Nat.repeat spread (i + 1) seed)

/-! ## Generators

Generators of random words. A generator is an endless sequence of words together with the position of
the next one, so its state is known once its position is.
-/

/-- An endless sequence of words, and how many of them are used up. -/
structure Generator where
  /-- The words that are drawn, one after the other. -/
  stream : Nat → UInt32
  /-- How many words have been drawn. -/
  position : Nat

namespace Generator

/-- The generator of the words of a key. -/
def ofKey (key : Key) : Generator := ⟨key.word, 0⟩

/-- The generator of a seed. -/
def ofSeed (seed : UInt64) : Generator := ofKey (Key.ofSeed seed)

end Generator

/-- A computation that draws words from a generator. -/
abbrev Draw := StateM Generator

/-- Draws the next word. -/
def word : Draw UInt32 := fun g => (g.stream g.position, ⟨g.stream, g.position + 1⟩)

/-- Draws eight words and makes them the key of a new generator. -/
def fork : Draw Generator := fun g =>
  (.ofKey (Key.ofWords fun i => g.stream (g.position + i)), ⟨g.stream, g.position + 8⟩)

end Random

end Sapling
