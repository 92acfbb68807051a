import NeuronFleet.Random.Uniform
import NeuronFleet.Error

/-
  The synthetic training corpus.

  Each sequence is an arithmetic run of tokens modulo the vocabulary:
  a random start, then steps of a stride drawn from `1, 2, 3, 5`, so
  the next token can be learned from its context.  A batch is
  `batchSize` sequences, drawn one after another from one seeded
  generator.  Token positions are 32-bit words: a sequence holds the
  low 32 bits of `sequenceLength` tokens, and each token is computed in
  64-bit words.

  Main definitions:
    * `Corpus`, `Corpus.new`, `Corpus.token`, `Corpus.sequence`, `Corpus.nextBatch`,
      `Corpus.takeBatches`
-/

namespace NeuronFleet

/- A seeded source of synthetic batches. -/
structure Corpus where
  rng : Random.ChaCha
  vocabSize : Nat
  batchSize : Nat
  sequenceLength : Nat
  -- batches given so far
  batches : Nat
  deriving Inhabited

namespace Corpus

/- The strides a run may take. -/
def strides : List Nat := [1, 2, 3, 5]

/- A corpus with the given shape and seed; the vocabulary must fit in
32 bits, batches must be non-empty and sequences hold two tokens at
least. -/
def new
    (vocabSize batchSize sequenceLength : Nat)
    (seed : UInt64) :
    Outcome Corpus :=
  if vocabSize == 0 || vocabSize > 4294967295 then
    .error (.config ("unsupported vocabulary size " ++ toString vocabSize))
  else if batchSize == 0 then .error (.config "batch size must be positive")
  else if sequenceLength < 2 then .error (.config "sequences need at least 2 tokens")
  else .ok ⟨Random.ChaCha.ofSeed seed, vocabSize, batchSize, sequenceLength, 0⟩

/- Token `i` of a run from `start` by `stride`: the sum is taken in
64-bit words, reduced modulo the vocabulary and read as a 32-bit word. -/
def token (vocabSize start stride i : Nat) : Nat :=
  ((UInt64.ofNat start + UInt64.ofNat i * UInt64.ofNat stride) %
    UInt64.ofNat vocabSize).toUInt32.toNat

/- One run: its start, then its stride, drawn in that order.  Positions
are counted in 32 bits, so the length is cast to its low 32 bits. -/
def sequence (c : Corpus) : List Nat × Corpus :=
  let (start, g) := c.rng.rangeNat 32 0 c.vocabSize
  let (k, g) := g.rangeIndex 0 strides.length
  let stride := strides.getD k 1
  ((List.range (UInt32.ofNat c.sequenceLength).toNat).map (token c.vocabSize start stride),
   { c with rng := g })

/- `n` runs in order. -/
def sequences (c : Corpus) : Nat → List (List Nat) × Corpus
  | 0 => ([], c)
  | n + 1 =>
    let (s, c) := c.sequence
    let (rest, c) := c.sequences n
    (s :: rest, c)

/- The next batch. -/
def nextBatch (c : Corpus) : List (List Nat) × Corpus :=
  let (b, c) := c.sequences c.batchSize
  (b, { c with batches := c.batches + 1 })

/- The next `n` batches, in order. -/
def takeBatches (c : Corpus) : Nat → List (List (List Nat)) × Corpus
  | 0 => ([], c)
  | n + 1 =>
    let (b, c) := c.nextBatch
    let (rest, c) := c.takeBatches n
    (b :: rest, c)

end Corpus

end NeuronFleet
