import NeuronFleet.Corpus

/-
  Batches of the synthetic corpus are arithmetic runs.

  A uniform draw below `n` lands below `n` (`below_lt`): the high half
  of the product of a word and `n` is below `n`, and the carry that a
  second word may add only comes when that half is at most `n - 2`.  So
  a run starts inside the vocabulary, and as its positions are 32-bit
  words and its stride is at most 5, the 64-bit sum behind each token
  never wraps (`token_eq`): token `i` is `(start + i * stride) % vocabSize`,
  each token is the one before plus the stride, and every token lies in
  the vocabulary whatever the sum (`token_lt`).  A run holds as many
  tokens as the low 32 bits of the configured length, so a length of
  `2 ^ 32 + 1` gives runs of one token; a batch is `batchSize` runs;
  each call counts one batch, and nothing of the corpus but its
  generator and that count moves.

  Main declarations:
    * `Random.ChaCha.below_lt`, `Random.ChaCha.rangeNat_lt`
    * `Corpus.token_eq`, `Corpus.token_lt`, `Corpus.IsRun`, `Corpus.IsBatch`
    * `Corpus.sequence_spec`, `Corpus.nextBatch_spec`, `Corpus.takeBatches_spec`
    * `Corpus.new_batches_are_strided_runs`, `Corpus.wrapped_length_gives_single_tokens`
-/

namespace NeuronFleet

------------------------------------------------------------
-- Uniform Draws Stay in Range
------------------------------------------------------------

namespace Random

namespace ChaCha

theorem draw_lt
    (g : ChaCha)
    {bits : Nat}
    (h : bits = 32 ∨ bits = 64) :
    (g.draw bits).1 < Nat.pow 2 bits := by
  rcases h with rfl | rfl
  · exact UInt32.toNat_lt _
  · exact UInt64.toNat_lt _

/- When the low half of `x * n` exceeds `top - n`, its high half is at
most `n - 2`: at `n - 1` the low half would be `x * n - (n - 1) * top`,
which is at most `top - n` as `x < top`. -/
theorem high_add_one_lt
    {x n top : Nat}
    (hx : x < top)
    (hLo : top - n < x * n % top) :
    x * n / top + 1 < n := by
  have hDiv := Nat.div_add_mod (x * n) top
  have hBelow : (x + 1) * n ≤ top * n := Nat.mul_le_mul_right n hx
  rw [Nat.add_mul, Nat.one_mul] at hBelow
  refine Nat.lt_of_not_le fun hHigh => ?_
  have hAbove : top * n ≤ top * (x * n / top + 1) := Nat.mul_le_mul_left top hHigh
  rw [Nat.mul_add, Nat.mul_one] at hAbove
  omega

theorem below_lt
    (g : ChaCha)
    {bits n : Nat}
    (hBits : bits = 32 ∨ bits = 64)
    (hPos : 0 < n) :
    (g.below bits n).1 < n := by
  have hx := g.draw_lt hBits
  rcases hDraw : g.draw bits with ⟨x, g'⟩
  simp only [hDraw] at hx
  unfold below
  simp only [hDraw]
  split
  · -- the whole range of the words: the draw itself
    rename_i hTop
    have : n = Nat.pow 2 bits := by simpa using hTop
    omega
  · split
    · -- a second word may carry one into the high half
      have := high_add_one_lt hx ‹_›
      split <;> dsimp only <;> omega
    · exact Nat.div_lt_of_lt_mul (Nat.mul_lt_mul_of_pos_right hx hPos)

theorem rangeNat_lt
    (g : ChaCha)
    {bits low high : Nat}
    (hBits : bits = 32 ∨ bits = 64)
    (hLt : low < high) :
    (g.rangeNat bits low high).1 < high := by
  have hBelow := g.below_lt hBits (n := high - low) (by omega)
  rcases hDraw : g.below bits (high - low) with ⟨r, g'⟩
  simp only [hDraw] at hBelow
  simp only [rangeNat, hDraw]
  omega

end ChaCha

end Random

------------------------------------------------------------
-- Tokens
------------------------------------------------------------

namespace Corpus

/- With the start, the position and the vocabulary below `2 ^ 32` and a
stride of at most 5, the sum is below `6 * 2 ^ 32`: no 64-bit word wraps,
and the reduced token fits back in 32 bits. -/
theorem token_eq
    {vocabSize start stride i : Nat}
    (hPos : 0 < vocabSize)
    (hFits : vocabSize < 4294967296)
    (hStart : start < 4294967296)
    (hI : i < 4294967296)
    (hStride : stride ≤ 5) :
    token vocabSize start stride i = (start + i * stride) % vocabSize := by
  have hProd : i * stride ≤ 4294967295 * 5 := Nat.mul_le_mul (by omega) hStride
  have hMod := Nat.mod_lt (start + i * stride) hPos
  simp only [token, UInt64.toNat_toUInt32, UInt64.toNat_mod, UInt64.toNat_add, UInt64.toNat_mul,
    UInt64.toNat_ofNat']
  -- every reduction modulo `2 ^ 64`, and the last one modulo `2 ^ 32`, is the identity
  rw [Nat.mod_eq_of_lt (a := start) (by omega), Nat.mod_eq_of_lt (a := i) (by omega),
    Nat.mod_eq_of_lt (a := stride) (by omega), Nat.mod_eq_of_lt (a := i * stride) (by omega),
    Nat.mod_eq_of_lt (a := start + i * stride) (by omega),
    Nat.mod_eq_of_lt (a := vocabSize) (by omega), Nat.mod_eq_of_lt (by omega)]

/- The token lies in the vocabulary whatever the sum: reduced modulo the
vocabulary, it fits in 32 bits, so the cast keeps it. -/
theorem token_lt
    {vocabSize : Nat}
    (start stride i : Nat)
    (hPos : 0 < vocabSize)
    (hFits : vocabSize < 4294967296) :
    token vocabSize start stride i < vocabSize := by
  simp only [token, UInt64.toNat_toUInt32, UInt64.toNat_mod, UInt64.toNat_ofNat']
  rw [Nat.mod_eq_of_lt (a := vocabSize) (by omega)]
  have hMod := Nat.mod_lt ((UInt64.ofNat start + UInt64.ofNat i * UInt64.ofNat stride).toNat) hPos
  rw [Nat.mod_eq_of_lt (by omega)]
  exact hMod

theorem token_succ
    {vocabSize start stride i : Nat}
    (hPos : 0 < vocabSize)
    (hFits : vocabSize < 4294967296)
    (hStart : start < 4294967296)
    (hI : i + 1 < 4294967296)
    (hStride : stride ≤ 5) :
    token vocabSize start stride (i + 1) = (token vocabSize start stride i + stride) % vocabSize := by
  rw [token_eq hPos hFits hStart hI hStride, token_eq hPos hFits hStart (by omega) hStride,
    Nat.mod_add_mod, Nat.add_mul, Nat.one_mul, Nat.add_assoc]

/- The default of the lookup is itself a stride, so no bound on the drawn
index is needed. -/
theorem getD_strides_mem (k : Nat) : strides.getD k 1 ∈ strides := by
  rcases k with _ | _ | _ | _ | k <;> simp [strides]

theorem le_five_of_mem_strides
    {stride : Nat}
    (h : stride ∈ strides) :
    stride ≤ 5 := by
  simp only [strides, List.mem_cons, List.mem_nil_iff, or_false] at h
  omega

------------------------------------------------------------
-- Runs and Batches
------------------------------------------------------------

/- `s` is a run of `length` tokens of the vocabulary, each the one before
plus one stride of `strides`, modulo the vocabulary. -/
structure IsRun (vocabSize length : Nat) (s : List Nat) : Prop where
  length_eq : s.length = length
  lt_vocab : ∀ t ∈ s, t < vocabSize
  strided : ∃ stride ∈ strides, ∀ i (h : i + 1 < s.length), s[i + 1] = (s[i] + stride) % vocabSize

/- `b` is a batch of `batchSize` runs of `length` tokens of the vocabulary. -/
structure IsBatch (vocabSize batchSize length : Nat) (b : List (List Nat)) : Prop where
  length_eq : b.length = batchSize
  runs : ∀ s ∈ b, IsRun vocabSize length s

theorem isRun_map_token
    {vocabSize start stride n : Nat}
    (hPos : 0 < vocabSize)
    (hFits : vocabSize < 4294967296)
    (hStart : start < 4294967296)
    (hStride : stride ∈ strides)
    (hN : n ≤ 4294967296) :
    IsRun vocabSize n ((List.range n).map (token vocabSize start stride)) where
  length_eq := by simp
  lt_vocab := by
    intro t ht
    obtain ⟨i, -, rfl⟩ := List.mem_map.1 ht
    exact token_lt start stride i hPos hFits
  strided := by
    refine ⟨stride, hStride, fun i h => ?_⟩
    simp only [List.length_map, List.length_range] at h
    simp only [List.getElem_map, List.getElem_range]
    exact token_succ hPos hFits hStart (by omega) (le_five_of_mem_strides hStride)

------------------------------------------------------------
-- Drawing, Call by Call
------------------------------------------------------------

/- A corpus whose vocabulary is non-empty and fits in 32 bits, as `new`
makes it. -/
structure Fits (c : Corpus) : Prop where
  pos : 0 < c.vocabSize
  lt : c.vocabSize < 4294967296

/- A run is drawn as a start inside the vocabulary and a stride of
`strides`, over the low 32 bits of the length; of the corpus only the
generator moves. -/
theorem sequence_spec
    (c : Corpus)
    (hPos : 0 < c.vocabSize) :
    ∃ start stride g, start < c.vocabSize ∧ stride ∈ strides ∧
      c.sequence = ((List.range (c.sequenceLength % 4294967296)).map
        (token c.vocabSize start stride), { c with rng := g }) := by
  have hStart : (c.rng.rangeNat 32 0 c.vocabSize).1 < c.vocabSize :=
    c.rng.rangeNat_lt (Or.inl rfl) hPos
  rcases hDraw : c.rng.rangeNat 32 0 c.vocabSize with ⟨start, g⟩
  rcases hIndex : g.rangeIndex 0 strides.length with ⟨k, g'⟩
  simp only [hDraw] at hStart
  refine ⟨start, strides.getD k 1, g', hStart, getD_strides_mem k, ?_⟩
  simp only [sequence, hDraw, hIndex, UInt32.toNat_ofNat']

theorem sequences_spec
    {c : Corpus}
    (h : c.Fits)
    (n : Nat) :
    (c.sequences n).1.length = n ∧
      (∀ s ∈ (c.sequences n).1, IsRun c.vocabSize (c.sequenceLength % 4294967296) s) ∧
      ∃ g, (c.sequences n).2 = { c with rng := g } := by
  -- each run moves only the generator, so the rest are judged against the same shape
  induction n generalizing c with
  | zero => exact ⟨rfl, by simp [sequences], c.rng, rfl⟩
  | succ n ih =>
    obtain ⟨start, stride, g, hStart, hStride, hEq⟩ := sequence_spec c h.pos
    obtain ⟨hLen, hRuns, g', hFrame⟩ := ih (c := { c with rng := g }) ⟨h.pos, h.lt⟩
    have hRun := isRun_map_token (n := c.sequenceLength % 4294967296) h.pos h.lt
      (Nat.lt_trans hStart h.lt) hStride (Nat.le_of_lt (Nat.mod_lt _ (by decide)))
    simp only [sequences, hEq]
    refine ⟨by simp [hLen], ?_, g', hFrame⟩
    intro s hs
    rcases List.mem_cons.1 hs with rfl | hs
    · exact hRun
    · exact hRuns s hs

/- The step: one batch of `batchSize` runs, counted; of the corpus only
the generator and the count move. -/
theorem nextBatch_spec
    {c : Corpus}
    (h : c.Fits) :
    IsBatch c.vocabSize c.batchSize (c.sequenceLength % 4294967296) c.nextBatch.1 ∧
      ∃ g, c.nextBatch.2 = { c with rng := g, batches := c.batches + 1 } := by
  obtain ⟨hLen, hRuns, g, hFrame⟩ := sequences_spec h c.batchSize
  rcases hDraw : c.sequences c.batchSize with ⟨b, c'⟩
  simp only [hDraw] at hLen hRuns hFrame
  subst hFrame
  simp only [nextBatch, hDraw]
  exact ⟨⟨hLen, hRuns⟩, g, rfl⟩

/- The run, by induction on the calls from the step. -/
theorem takeBatches_spec
    {c : Corpus}
    (h : c.Fits)
    (n : Nat) :
    (c.takeBatches n).1.length = n ∧
      (∀ b ∈ (c.takeBatches n).1,
        IsBatch c.vocabSize c.batchSize (c.sequenceLength % 4294967296) b) ∧
      ∃ g, (c.takeBatches n).2 = { c with rng := g, batches := c.batches + n } := by
  induction n generalizing c with
  | zero => exact ⟨rfl, by simp [takeBatches], c.rng, rfl⟩
  | succ n ih =>
    obtain ⟨hBatch, g, hStep⟩ := nextBatch_spec h
    rcases hNext : c.nextBatch with ⟨b, c'⟩
    rw [hNext] at hBatch hStep
    subst hStep
    obtain ⟨hLen, hBatches, g', hFrame⟩ := ih (c := { c with rng := g, batches := c.batches + 1 })
      ⟨h.pos, h.lt⟩
    simp only [takeBatches, hNext]
    refine ⟨by simp [hLen], ?_, g', ?_⟩
    · intro b' hb'
      rcases List.mem_cons.1 hb' with rfl | hb'
      · exact hBatch
      · exact hBatches b' hb'
    · rw [hFrame, Nat.add_assoc, Nat.add_comm 1 n]

------------------------------------------------------------
-- A Seeded Corpus, Batch after Batch
------------------------------------------------------------

theorem new_eq_ok
    {vocabSize batchSize sequenceLength : Nat}
    (seed : UInt64)
    (hPos : 0 < vocabSize)
    (hFits : vocabSize ≤ 4294967295)
    (hBatch : 0 < batchSize)
    (hLength : 2 ≤ sequenceLength) :
    new vocabSize batchSize sequenceLength seed =
      .ok ⟨Random.ChaCha.ofSeed seed, vocabSize, batchSize, sequenceLength, 0⟩ := by
  unfold new
  rw [if_neg (by simp; omega), if_neg (by simp; omega), if_neg (by omega)]

/- Every batch that a corpus accepted by `new` gives, call after call, is
`batchSize` runs of tokens of the vocabulary, each run stepping by one
stride of `strides` and holding the low 32 bits of `sequenceLength`
tokens; the count of batches is the number of calls. -/
theorem new_batches_are_strided_runs
    (vocabSize batchSize sequenceLength : Nat)
    (seed : UInt64)
    (hPos : 0 < vocabSize)
    (hFits : vocabSize ≤ 4294967295)
    (hBatch : 0 < batchSize)
    (hLength : 2 ≤ sequenceLength) :
    ∃ c, new vocabSize batchSize sequenceLength seed = .ok c ∧ ∀ n,
      (c.takeBatches n).1.length = n ∧ (c.takeBatches n).2.batches = n ∧
      ∀ b ∈ (c.takeBatches n).1, IsBatch vocabSize batchSize (sequenceLength % 4294967296) b := by
  refine ⟨_, new_eq_ok seed hPos hFits hBatch hLength, fun n => ?_⟩
  obtain ⟨hLen, hBatches, g, hFrame⟩ :=
    takeBatches_spec (c := ⟨Random.ChaCha.ofSeed seed, vocabSize, batchSize, sequenceLength, 0⟩)
      ⟨hPos, (by omega : vocabSize < 4294967296)⟩ n
  refine ⟨hLen, ?_, hBatches⟩
  rw [hFrame, Nat.zero_add]

/- The widest vocabulary, with the longest runs that still fit in 32 bits. -/
theorem widest_corpus_gives_strided_runs :
    (0 < 4294967295 ∧ 4294967295 ≤ 4294967295 ∧ 0 < 8 ∧ 2 ≤ 4294967295) ∧
      ∃ c, new 4294967295 8 4294967295 9 = .ok c ∧ ∀ n,
        (c.takeBatches n).1.length = n ∧ (c.takeBatches n).2.batches = n ∧
        ∀ b ∈ (c.takeBatches n).1, IsBatch 4294967295 8 4294967295 b :=
  ⟨⟨by decide, by decide, by decide, by decide⟩,
    new_batches_are_strided_runs 4294967295 8 4294967295 9 (by decide) (by decide) (by decide)
      (by decide)⟩

/- A length of `2 ^ 32 + 1` is cast to one position: the run of the first
batch holds one token, where `new` asks for two at least. -/
theorem wrapped_length_gives_single_tokens :
    ∃ c, new 16 1 4294967297 0 = .ok c ∧ c.nextBatch.1.map List.length = [1] := by
  refine ⟨_, new_eq_ok 0 (by decide) (by decide) (by decide) (by decide), ?_⟩
  obtain ⟨⟨hLen, hRuns⟩, -⟩ := nextBatch_spec (c := ⟨Random.ChaCha.ofSeed 0, 16, 1, 4294967297, 0⟩)
    ⟨by decide, by decide⟩
  show _ = List.replicate 1 1
  rw [List.eq_replicate_iff, List.length_map]
  refine ⟨hLen, fun k hk => ?_⟩
  obtain ⟨s, hs, rfl⟩ := List.mem_map.1 hk
  exact (hRuns s hs).length_eq

end Corpus

end NeuronFleet
