import NeuronFleet.Proofs.Json.Typed
import NeuronFleet.Proofs.Metagraph.Mirror

/-
  The shared document reads back the state it was written from.

  A state is written as one object: its version, its hotkeys, and its
  matrix, an object of the matrix's side and its weights row by row.
  Read against the document's schema every piece comes back as it
  was: the version, which fits 64 bits by its type, the hotkeys
  character for character, the side while it fits a word, and each
  weight whose text reads back as the weight.  That last condition is
  what the writer's shortest digits and the reader's rounding, first
  to a double and then to a single, give between them; it is taken
  weight by weight.

  The side is the one piece with no bound of its own: past a word it
  is still written, and then read as a number of another kind, so the
  document codec does not read back every finite state.

  Main declarations:
    * `Json.Reader.leads_single` : a single's text starts a number
    * `F32.TextReadsBack`
    * `SharedState.readDocument_toDocument`
    * `StateCodec.document_not_readsBack`
-/

namespace NeuronFleet

------------------------------------------------------------
-- The Text of a Single
------------------------------------------------------------

namespace Decimal

theorem digitChars_cons (n : Nat) :
    ∃ c cs, digitChars n = c :: cs ∧ 48 ≤ c.toNat ∧ c.toNat ≤ 57 := by
  obtain ⟨c, cs, hcs⟩ : ∃ c cs, Nat.toDigits 10 n = c :: cs :=
    List.exists_cons_of_ne_nil Nat.toDigits_ne_nil
  exact ⟨c, cs, hcs, Json.Reader.digit_of_mem_toDigits (hcs ▸ List.mem_cons_self)⟩

/- Laid out digits start with the sign or with a digit. -/
theorem writeDigits_head
    (l : Layout)
    (negative : Bool)
    (d : Digits) :
    ∃ c rest, (l.writeDigits negative d).toList = c :: rest ∧
      (c = '-' ∨ 48 ≤ c.toNat ∧ c.toNat ≤ 57) := by
  obtain ⟨c, cs, hcs, hc⟩ := digitChars_cons d.digits
  unfold Layout.writeDigits
  cases negative
  all_goals
    simp only [hcs]
    split_ifs <;> simp_all
  -- the integral part of a positional number keeps its leading digit
  obtain ⟨k, hk⟩ : ∃ k, (d.exponent + (1 + (cs.length : Int))).toNat = k + 1 :=
    ⟨(d.exponent + (cs.length : Int)).toNat, by omega⟩
  simp [hk, hc]

end Decimal

namespace Json

namespace Reader

/- A text whose first character is a sign, a digit or the `n` of `null`
starts a value. -/
theorem leads_of_head
    {v : Json}
    {c : Char}
    {rest : List Char}
    (hHead : (write v).toList = c :: rest)
    (hc : c.toNat = 45 ∨ c.toNat = 110 ∨ 48 ≤ c.toNat ∧ c.toNat ≤ 57) :
    Leads v := by
  have hByte : (UInt8.ofNat c.toNat).toNat = c.toNat :=
    UInt8.toNat_ofNat_of_lt (show c.toNat < 256 by omega)
  -- the first byte is the character itself; compare it by its code
  have hNe : ∀ k : UInt8, k.toNat ≠ c.toNat → UInt8.ofNat c.toNat ≠ k := fun k hk h =>
    hk (by rw [← h, hByte])
  refine ⟨UInt8.ofNat c.toNat, rest.flatMap String.utf8EncodeChar, ?_, ?_, ?_⟩
  · rw [toUTF8_toList, hHead, List.flatMap_cons, utf8EncodeChar_ascii (by omega)]
    rfl
  · simp only [isBlank, Bool.or_eq_false_iff, beq_eq_false_iff_ne]
    refine ⟨⟨⟨hNe 32 ?_, hNe 10 ?_⟩, hNe 9 ?_⟩, hNe 13 ?_⟩ <;> simp <;> omega
  · exact hNe 93 (by simp; omega)

/- A single's text starts a number, or is `null`. -/
theorem leads_single (x : F32) : Leads (.single x) := by
  have hWrite : write (.single x) = singleLayout.writeValue F32.format x.value := rfl
  cases hValue : x.value with
  | nan =>
    have hHead : (write (.single x)).toList = 'n' :: "ull".toList := by
      rw [hWrite, hValue]
      rfl
    exact leads_of_head hHead (.inr (.inl rfl))
  | infinite negative =>
    have hHead : (write (.single x)).toList = 'n' :: "ull".toList := by
      rw [hWrite, hValue]
      cases negative <;> rfl
    exact leads_of_head hHead (.inr (.inl rfl))
  | finite negative m =>
    by_cases hZero : m = 0
    · by_cases hSign : negative = true
      · have hHead : (write (.single x)).toList = '-' :: "0.0".toList := by
          rw [hWrite, hValue]
          simp [Decimal.Layout.writeValue, hZero, hSign, singleLayout, doubleLayout]
        exact leads_of_head hHead (.inl rfl)
      · have hHead : (write (.single x)).toList = '0' :: ".0".toList := by
          rw [hWrite, hValue]
          simp [Decimal.Layout.writeValue, hZero, hSign, singleLayout, doubleLayout]
        exact leads_of_head hHead (.inr (.inr (by decide)))
    · obtain ⟨c, rest, hHead, hc⟩ :=
        Decimal.writeDigits_head singleLayout negative (F32.format.shortest m)
      have hText : (write (.single x)).toList = c :: rest := by
        rw [hWrite, hValue, ← hHead]
        simp [Decimal.Layout.writeValue, hZero]
      refine leads_of_head hText ?_
      rcases hc with rfl | hDigit
      · exact .inl rfl
      · exact .inr (.inr hDigit)

end Reader

end Json

/- A single whose text, read as a number and rounded to a single, is the
single again. -/
def F32.TextReadsBack (x : F32) : Prop :=
  Json.Reader.Recovers (Json.Reader.typed 1 .single) (.single x)

namespace Json.Reader

/- Reading a single does not depend on the depth it is read at. -/
theorem typed_single (d : Nat) : typed (d + 1) .single = typed 1 .single := by
  rw [typed_succ, typed_succ]
  unfold typedStep
  rfl

theorem recovers_single
    {x : F32}
    (d : Nat)
    (h : x.TextReadsBack) :
    Recovers (typed (d + 1) .single) (.single x) := by
  rw [typed_single]
  exact h

end Json.Reader

------------------------------------------------------------
-- The Document
------------------------------------------------------------

namespace SharedState

open Json Reader

/- A state's matrix reads back against its record, at any depth that
leaves room for the list of weights. -/
theorem recovers_weights
    (d : Nat)
    (w : WeightMatrix)
    (hSide : w.n ≤ 18446744073709551615)
    (hWeights : ∀ x ∈ w.data, x.TextReadsBack) :
    Recovers (typed (d + 2 + 1)
        (.record "WeightMatrix" [("n", Schema.usize, none), ("data", .list .single, none)]))
      (.obj [("n", .int w.n), ("data", .arr (w.data.map .single))]) := by
  have hData : Recovers (typed (d + 1 + 1) (.list .single)) (.arr (w.data.map .single)) := by
    refine recovers_list _ (fun v hv => ?_) (by omega)
    obtain ⟨x, hx, rfl⟩ := List.mem_map.mp hv
    exact ⟨recovers_single d (hWeights x hx), leads_single x⟩
  have hFields : List.Forall₂ (FieldReads (typed (d + 2)))
      [("n", Schema.usize, none), ("data", .list .single, none)]
      [("n", .int w.n), ("data", .arr (w.data.map .single))] :=
    .cons ⟨rfl, recovers_unsigned hSide le_rfl⟩ (.cons ⟨rfl, hData⟩ .nil)
  apply Recovers.of_runs
  intro b i hAt
  exact runs_record _ hFields (by decide) (by omega) hAt

/-
  The document of a state reads back as the state, when the matrix's
  side fits a word and each weight's text reads back as the weight.
-/
theorem readDocument_toDocument
    (s : SharedState)
    (hSide : s.weights.n ≤ 18446744073709551615)
    (hWeights : ∀ x ∈ s.weights.data, x.TextReadsBack) :
    readDocument s.toDocument = .ok s := by
  have hNeurons : Recovers (typed (maxDepth - 2 + 1) (.list .string)) (.arr (s.neurons.map .str)) := by
    refine recovers_list _ (fun v hv => ?_) (by decide)
    obtain ⟨k, -, rfl⟩ := List.mem_map.mp hv
    exact ⟨recovers_string k, leads_str k⟩
  have hVersion : s.version.toNat ≤ 18446744073709551615 := by
    have := s.version.toNat_lt
    omega
  have hFields : List.Forall₂ (FieldReads (typed (maxDepth - 1)))
      [("version", Schema.u64, none), ("neurons", .list .string, none),
        ("weights", .record "WeightMatrix" [("n", Schema.usize, none), ("data", .list .single, none)],
          none)]
      [("version", .int s.version.toNat), ("neurons", .arr (s.neurons.map .str)),
        ("weights", .obj [("n", .int s.weights.n), ("data", .arr (s.weights.data.map .single))])] :=
    .cons ⟨rfl, recovers_unsigned hVersion le_rfl⟩
      (.cons ⟨rfl, hNeurons⟩ (.cons ⟨rfl, recovers_weights (maxDepth - 4) s.weights hSide hWeights⟩ .nil))
  unfold readDocument readAs toDocument
  rw [schema, readBytesAs_record _ hFields (by decide)]
  simp [ofJson, natField, Json.field?, List.lookup_cons, List.filterMap_map]

theorem named_document_reads_back :
    readDocument (toDocument ⟨3, ["alice", "bob"], ⟨0, []⟩⟩) = .ok ⟨3, ["alice", "bob"], ⟨0, []⟩⟩ :=
  readDocument_toDocument _ (by decide) (fun _ hx => nomatch hx)

/- A side that does not fit a word is written in full, and read back as a
number of another kind. -/
theorem wide_side_does_not_read_back :
    (readDocument (toDocument ⟨0, [], ⟨18446744073709551616, []⟩⟩)).map (fun _ => ()) =
      .error (.serialization
        "invalid type: floating point `1.8446744073709552e+19`, expected usize at line 1 column 61") := by
  decide +kernel

end SharedState

/- The document codec does not read back every finite state: the side of
the matrix has to fit a word. -/
theorem StateCodec.document_not_readsBack : ¬ StateCodec.ReadsBack String := by
  intro hCodec
  have hBack := hCodec ⟨0, [], ⟨18446744073709551616, []⟩⟩ (fun _ hx => nomatch hx)
  have hFails := SharedState.wide_side_does_not_read_back
  -- the codec's decode and encode are the document's reader and writer
  change SharedState.readDocument (SharedState.toDocument _) = _ at hBack
  rw [hBack] at hFails
  cases hFails

end NeuronFleet
