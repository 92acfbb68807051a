/-
  The ChaCha stream generator, twelve-round variant.

  A generator is a 256-bit key; its output is the ChaCha keystream
  read as little-endian 32-bit words: block `b` is the block function
  applied to the constants, the key, the 64-bit block counter `b` and
  a zero stream number, and the stream is block 0, then block 1, and
  so on.  A 64-bit draw is two consecutive words, the first one low.

  A 64-bit seed becomes a key through the PCG32 generator: the seed is
  its state, and the eight outputs after eight steps are the eight key
  words.

  Main definitions:
    * `Random.ChaCha`, `Random.ChaCha.block`, `Random.ChaCha.word`
    * `Random.ChaCha.ofSeed`, `Random.ChaCha.nextU32`, `Random.ChaCha.nextU64`
-/

namespace NeuronFleet

namespace Random

------------------------------------------------------------
-- The block function
------------------------------------------------------------

/- Rotates a word left by `k` bits, `k` below 32. -/
def rotl
    (x : UInt32)
    (k : UInt32) :
    UInt32 := (x <<< k) ||| (x >>> (32 - k))

/- Rotates a word right by `k` bits, `k` below 32. -/
def rotr
    (x : UInt32)
    (k : UInt32) :
    UInt32 := (x >>> k) ||| (x <<< (32 - k))

/- The quarter round on the words at `a`, `b`, `c`, `d` of the state. -/
def quarter
    (s : Array UInt32)
    (a b c d : Nat) :
    Array UInt32 :=
  let va := s[a]!
  let vb := s[b]!
  let vc := s[c]!
  let vd := s[d]!
  let va := va + vb
  let vd := rotl (vd ^^^ va) 16
  let vc := vc + vd
  let vb := rotl (vb ^^^ vc) 12
  let va := va + vb
  let vd := rotl (vd ^^^ va) 8
  let vc := vc + vd
  let vb := rotl (vb ^^^ vc) 7
  ((((s.set! a va).set! b vb).set! c vc).set! d vd)

/- A column round followed by a diagonal round. -/
def doubleRound (s : Array UInt32) : Array UInt32 :=
  let s := quarter s 0 4 8 12
  let s := quarter s 1 5 9 13
  let s := quarter s 2 6 10 14
  let s := quarter s 3 7 11 15
  let s := quarter s 0 5 10 15
  let s := quarter s 1 6 11 12
  let s := quarter s 2 7 8 13
  quarter s 3 4 9 14

/- `n` double rounds. -/
def doubleRounds : Nat → Array UInt32 → Array UInt32
  | 0, s => s
  | n + 1, s => doubleRounds n (doubleRound s)

/- The four constant words, `expand 32-byte k`. -/
def constants : List UInt32 := [0x61707865, 0x3320646e, 0x79622d32, 0x6b206574]

------------------------------------------------------------
-- Generators
------------------------------------------------------------

/- A ChaCha generator: its key, how many words it has given, and the
block it last computed, kept so that consecutive words reuse it. -/
structure ChaCha where
  -- eight key words
  key : List UInt32
  -- words given so far; the next word is at this position
  position : Nat
  -- the last block computed, with its number
  cache : Option (Nat × Array UInt32)
  deriving Inhabited

namespace ChaCha

/- Rounds of the twelve-round variant. -/
def rounds : Nat := 12

/- Block `b` of the stream of a key: sixteen words. -/
def block
    (key : List UInt32)
    (b : Nat) :
    Array UInt32 :=
  let input := (constants ++ key ++
    [UInt32.ofNat (b % Nat.pow 2 32), UInt32.ofNat (b / Nat.pow 2 32 % Nat.pow 2 32), 0, 0]).toArray
  let mixed := doubleRounds (rounds / 2) input
  (mixed.zip input).map fun (x, y) => x + y

/- The word at a position of the stream of a key. -/
def word
    (key : List UInt32)
    (p : Nat) :
    UInt32 := (block key (p / 16))[p % 16]!

/- A generator at the start of the stream of a key. -/
def ofKey (key : List UInt32) : ChaCha := ⟨key, 0, none⟩

/- One step of PCG32: the new state and its output word. -/
def pcg32 (state : UInt64) : UInt64 × UInt32 :=
  let state := state * 6364136223846793005 + 11634580027462260723
  let xorshifted := (((state >>> 18) ^^^ state) >>> 27).toUInt32
  let rot := (state >>> 59).toUInt32
  (state, rotr xorshifted rot)

/- The key words PCG32 gives from a seed: one output per step. -/
def keyOfSeed (seed : UInt64) : List UInt32 :=
  go 8 seed
where
  go : Nat → UInt64 → List UInt32
    | 0, _ => []
    | n + 1, s =>
      let (s, w) := pcg32 s
      w :: go n s

/- The generator seeded with a 64-bit number. -/
def ofSeed (seed : UInt64) : ChaCha := ofKey (keyOfSeed seed)

/- The next word of the stream. -/
def nextU32 (g : ChaCha) : UInt32 × ChaCha :=
  let b := g.position / 16
  let blk := match g.cache with
    | some (c, words) => if c == b then words else block g.key b
    | none => block g.key b
  (blk[g.position % 16]!, { g with position := g.position + 1, cache := some (b, blk) })

/- The next two words as one 64-bit number, the first word low. -/
def nextU64 (g : ChaCha) : UInt64 × ChaCha :=
  let (lo, g) := g.nextU32
  let (hi, g) := g.nextU32
  ((hi.toUInt64 <<< 32) ||| lo.toUInt64, g)

end ChaCha

end Random

end NeuronFleet
